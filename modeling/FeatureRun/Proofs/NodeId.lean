import FeatureRun.NodeId
import FeatureRun.Proofs.Except
import FeatureRun.Proofs.Text.Numeral
import FeatureRun.Proofs.Text.Search

/-!
# Node ids are read back

What an id was made for is read from it again. For a rule this needs nothing but numbers that fit; a
scenario and a row need a file whose id neither holds the mark of a rule nor ends with a part of it,
and a feature needs a file whose id holds no mark at all.

* `IsFileId`, `IsPlain`: file ids that can be told from those of the nodes in the file.
* `IsPlain.read_id`: the round trip for such a file.
* `read_cases`: the other way round, what an id looks like that can be read.
* `eq_feature_of_read`: what can be read of the ids of feature files.
* `read_back_iff`: exactly when each kind of id is read back.
-/
set_option autoImplicit false

namespace FeatureRun

/-- A number that is read back from its digits, since there are not too many of them. -/
structure Fits (n : Int) : Prop where
  length : (Text.digits n.natAbs).length ≤ Text.maxDigits

/-- A smaller number is read back if a larger one is. -/
theorem Fits.mono {m n : Int} (h : Fits n) (hle : m.natAbs ≤ n.natAbs) : Fits m :=
  ⟨Nat.le_trans (Text.length_digits_mono hle) h.length⟩

/-- The id of a file of features, and not one that could be taken for that of a node in it. -/
structure IsFileId (file : String) : Prop where
  suffix : Text.endsWith file ".feature" = true
  noRule : Text.occursIn NodeRef.ruleMark file = false
  noScenario : Text.occursIn NodeRef.scenarioMark file = false

namespace NodeRef

open Text

theorem occursIn_eq_false_iff {w s : String} :
    occursIn w s = false ↔ ¬w.toList <:+: s.toList := by
  rw [occursIn, Option.isSome_eq_false_iff, Option.isNone_iff_eq_none, cutFirst?_eq_none_iff]

/-- A letter that is no digit and no minus stands in no number. -/
theorem not_mem_toString {c : Char} (hc : c.isDigit = false) (hm : c ≠ '-') (n : Int) :
    c ∉ (toString n).toList := by
  intro h
  rcases mem_toString h with h | h
  · simp [hc] at h
  · exact hm h

theorem not_infix_of_not_mem {c : Char} {w s : List Char} (hw : c ∈ w) (hs : c ∉ s) : ¬w <:+: s :=
  fun h => hs (h.subset hw)

/-! ## The marks in an id -/

theorem splitLast?_ruleMark (f : String) (n : Int) :
    splitLast? ruleMark (f ++ ruleMark ++ toString n) = some (f, toString n) := by
  have hu : 'r' ∉ "ule:".toList ++ (toString n).toList := by
    rw [List.mem_append, not_or]
    exact ⟨by decide, not_mem_toString (by decide) (by decide) n⟩
  have hcut := cutLast?_append (w := "ule:".toList) (c := ':') hu (by decide) f.toList
  rw [splitLast?, String.toList_append, String.toList_append]
  exact (congrArg _ hcut).trans (by simp)

/-- The numbers behind the mark of a scenario, and the mark between them. -/
def scenarioTail (s : Int) (row : Option Int) : String :=
  toString s ++ ((row.map fun e => exampleMark ++ toString e).getD "")

theorem scenarioTail_none (s : Int) : scenarioTail s none = toString s := String.append_empty

theorem not_mem_scenarioTail {c : Char} (hc : c.isDigit = false) (hm : c ≠ '-')
    (he : c ∉ exampleMark.toList) (s : Int) (row : Option Int) :
    c ∉ (scenarioTail s row).toList := by
  cases row with
  | none => simpa [scenarioTail] using not_mem_toString hc hm s
  | some e =>
    simp only [scenarioTail, Option.map_some, Option.getD_some, String.toList_append,
      List.mem_append, not_or]
    exact ⟨not_mem_toString hc hm s, he, not_mem_toString hc hm e⟩

theorem splitLast?_scenarioMark (f : String) (s : Int) (row : Option Int) :
    splitLast? scenarioMark (f ++ scenarioMark ++ scenarioTail s row) =
      some (f, scenarioTail s row) := by
  have hs : 's' ∉ "cenario:".toList ++ (scenarioTail s row).toList := by
    rw [List.mem_append, not_or]
    exact ⟨by decide, not_mem_scenarioTail (by decide) (by decide) (by decide) s row⟩
  have hcut := cutLast?_append (w := "cenario:".toList) (c := ':') hs (by decide) f.toList
  rw [splitLast?, String.toList_append, String.toList_append]
  exact (congrArg _ hcut).trans (by simp)

/-- The mark of a rule stands nowhere in the id of a scenario or row, if the file's id allows it. -/
theorem splitLast?_ruleMark_scenario {f : String} (hf : occursIn ruleMark f = false)
    (hend : endsWith f ":rule" = false) (s : Int) (row : Option Int) :
    splitLast? ruleMark (f ++ scenarioMark ++ scenarioTail s row) = none := by
  have htail : ¬ruleMark.toList <:+: scenarioMark.toList ++ (scenarioTail s row).toList := by
    refine not_infix_of_not_mem (c := 'u') (by decide) ?_
    rw [List.mem_append, not_or]
    exact ⟨by decide, not_mem_scenarioTail (by decide) (by decide) (by decide) s row⟩
  have hseam : ∀ u v, ruleMark.toList = u ++ v → v ≠ [] → u <:+ f.toList →
      ¬v <+: scenarioMark.toList ++ (scenarioTail s row).toList := by
    intro u v huv hv hu hprefix
    rcases v with - | ⟨a, - | ⟨b, v⟩⟩
    · exact hv rfl
    · have hu' : u = ":rule".toList := by
        have := congrArg List.dropLast huv
        rw [List.dropLast_concat] at this
        exact this.symm
      rw [endsWith, ← hu', List.isSuffixOf_iff_suffix.2 hu] at hend
      exact Bool.noConfusion hend
    · have hmark : scenarioMark.toList = ':' :: 's' :: "cenario:".toList := by decide
      rw [hmark, List.cons_append, List.cons_append, List.cons_prefix_cons] at hprefix
      obtain ⟨-, hb⟩ := hprefix
      have hs : 's' ∈ ruleMark.toList := by
        rw [huv, (List.cons_prefix_cons.1 hb).1]
        simp
      exact absurd hs (by decide)
  rw [splitLast?, String.toList_append, String.toList_append, List.append_assoc,
    cutLast?_eq_none_iff.2 (not_infix_append (occursIn_eq_false_iff.1 hf) htail hseam)]
  rfl

/-! ## Nodes of one file -/

/-- What stands behind the id of the file. -/
def tail : NodeRef → String
  | .feature _ => ""
  | .rule _ n => ruleMark ++ toString n
  | .scenario _ n => scenarioMark ++ scenarioTail n none
  | .row _ s n => scenarioMark ++ scenarioTail s (some n)

theorem id_eq_tail (x : NodeRef) : x.id = x.file ++ x.tail := by
  cases x <;> simp [id, tail, file, scenarioTail, String.append_assoc]

theorem splitFirst?_exampleMark (s e : Int) :
    splitFirst? exampleMark (scenarioTail s (some e)) = some (toString s, toString e) := by
  have hcolon : ':' ∉ (toString s).toList := not_mem_toString (by decide) (by decide) s
  have := cutFirst?_append hcolon "example:".toList (toString e).toList
  rw [scenarioTail, Option.map_some, Option.getD_some, splitFirst?, String.toList_append,
    String.toList_append, ← List.append_assoc]
  exact (congrArg _ this).trans (by simp)

theorem splitFirst?_exampleMark_none (s : Int) :
    splitFirst? exampleMark (scenarioTail s none) = none := by
  rw [scenarioTail_none, splitFirst?, cutFirst?_eq_none_iff.2]
  · rfl
  · exact not_infix_of_not_mem (c := ':') (by decide) (not_mem_toString (by decide) (by decide) s)

/-- The numbers behind the mark of a scenario can be told from each other. -/
theorem scenarioTail_inj {s s' : Int} {row row' : Option Int}
    (h : scenarioTail s row = scenarioTail s' row') : s = s' ∧ row = row' := by
  have hcut := congrArg (splitFirst? exampleMark) h
  cases row with
  | none =>
    cases row' with
    | none =>
      rw [scenarioTail_none, scenarioTail_none] at h
      exact ⟨eq_of_toString_eq h, rfl⟩
    | some e =>
      rw [splitFirst?_exampleMark_none, splitFirst?_exampleMark] at hcut
      nomatch hcut
  | some e =>
    cases row' with
    | none =>
      rw [splitFirst?_exampleMark_none, splitFirst?_exampleMark] at hcut
      nomatch hcut
    | some e' =>
      rw [splitFirst?_exampleMark, splitFirst?_exampleMark] at hcut
      obtain ⟨hs, he⟩ := Prod.mk.inj (Option.some.inj hcut)
      rw [eq_of_toString_eq hs, eq_of_toString_eq he]
      exact ⟨rfl, rfl⟩

theorem ruleMark_append_ne (a b : String) : ruleMark ++ a ≠ scenarioMark ++ b := by
  intro h
  have hsecond := congrArg (fun s : String => s.toList[1]?) h
  simp [ruleMark, scenarioMark] at hsecond

theorem mark_append_ne {mark : String} (hmark : mark ≠ "") (a : String) : mark ++ a ≠ "" := by
  simp [hmark]

/-- The nodes of one file have different ids, whatever the id of the file and however large the
numbers of the lines. -/
theorem eq_of_id_eq {x y : NodeRef} (hfile : x.file = y.file) (h : x.id = y.id) : x = y := by
  rw [id_eq_tail, id_eq_tail, hfile, String.append_right_inj] at h
  cases x with
  | feature f =>
    cases y with
    | feature g => exact congrArg feature hfile
    | rule g n => exact absurd h.symm (mark_append_ne (by decide) _)
    | scenario g n => exact absurd h.symm (mark_append_ne (by decide) _)
    | row g s n => exact absurd h.symm (mark_append_ne (by decide) _)
  | rule f n =>
    cases y with
    | feature g => exact absurd h (mark_append_ne (by decide) _)
    | rule g m =>
      cases hfile
      rw [eq_of_toString_eq ((String.append_right_inj _).1 h)]
    | scenario g m => exact absurd h (ruleMark_append_ne _ _)
    | row g s m => exact absurd h (ruleMark_append_ne _ _)
  | scenario f n =>
    cases y with
    | feature g => exact absurd h (mark_append_ne (by decide) _)
    | rule g m => exact absurd h.symm (ruleMark_append_ne _ _)
    | scenario g m =>
      cases hfile
      rw [(scenarioTail_inj ((String.append_right_inj _).1 h)).1]
    | row g s m => nomatch (scenarioTail_inj ((String.append_right_inj _).1 h)).2
  | row f s n =>
    cases y with
    | feature g => exact absurd h (mark_append_ne (by decide) _)
    | rule g m => exact absurd h.symm (ruleMark_append_ne _ _)
    | scenario g m => nomatch (scenarioTail_inj ((String.append_right_inj _).1 h)).2
    | row g t m =>
      cases hfile
      obtain ⟨rfl, hn⟩ := scenarioTail_inj ((String.append_right_inj _).1 h)
      rw [Option.some.inj hn]

/-! ## Reading -/

theorem read_ruleId (f : String) {n : Int} (hn : Fits n) : read (ruleId f n) = .ok (.rule f n) := by
  rw [ruleId, id, read, splitLast?_ruleMark]
  simp only [readInt_toString hn.length]
  rfl

theorem readScenario_tail_none (f : String) {s : Int} (hs : Fits s) :
    readScenario f (scenarioTail s none) = .ok (.scenario f s) := by
  rw [readScenario, splitFirst?_exampleMark_none, scenarioTail_none, readInt_toString hs.length]
  rfl

theorem readScenario_tail_some (f : String) {s e : Int} (hs : Fits s) (he : Fits e) :
    readScenario f (scenarioTail s (some e)) = .ok (.row f s e) := by
  rw [readScenario, splitFirst?_exampleMark]
  simp only [readInt_toString hs.length, readInt_toString he.length]
  rfl

theorem scenarioId_eq (f : String) (s : Int) :
    scenarioId f s = f ++ scenarioMark ++ scenarioTail s none := by
  simp [scenarioId, id, scenarioTail]

theorem rowId_eq (f : String) (s e : Int) :
    rowId f s e = f ++ scenarioMark ++ scenarioTail s (some e) := by
  simp [rowId, id, scenarioTail, String.append_assoc]

theorem read_scenarioId {f : String} (hf : occursIn ruleMark f = false)
    (hend : endsWith f ":rule" = false) {s : Int} (hs : Fits s) :
    read (scenarioId f s) = .ok (.scenario f s) := by
  rw [scenarioId_eq, read, splitLast?_ruleMark_scenario hf hend, splitLast?_scenarioMark]
  exact readScenario_tail_none f hs

theorem read_rowId {f : String} (hf : occursIn ruleMark f = false)
    (hend : endsWith f ":rule" = false) {s e : Int} (hs : Fits s) (he : Fits e) :
    read (rowId f s e) = .ok (.row f s e) := by
  rw [rowId_eq, read, splitLast?_ruleMark_scenario hf hend, splitLast?_scenarioMark]
  exact readScenario_tail_some f hs he

/-- An id without marks is that of a feature. -/
theorem read_of_noMark {f : String} (hrule : occursIn ruleMark f = false)
    (hscenario : occursIn scenarioMark f = false) : read f = .ok (.feature f) := by
  have hcut : ∀ {w : String}, occursIn w f = false → splitLast? w f = none := by
    intro w hw
    rw [splitLast?, cutLast?_eq_none_iff.2 (occursIn_eq_false_iff.1 hw)]
    rfl
  rw [read, hcut hrule, hcut hscenario]

/-! ## When an id is read back -/

/-- The id of a file that can be told from those of the nodes in the file. -/
structure IsPlain (file : String) : Prop where
  noRule : ¬ruleMark.toList <:+: file.toList
  noScenario : ¬scenarioMark.toList <:+: file.toList
  noRuleEnd : ¬":rule".toList <:+ file.toList

/-- Every number that a reference holds is read back from its digits. -/
def LinesFit : NodeRef → Prop
  | .feature _ => True
  | .rule _ n => Fits n
  | .scenario _ n => Fits n
  | .row _ s n => Fits s ∧ Fits n

theorem endsWith_eq_false_iff {s w : String} : endsWith s w = false ↔ ¬w.toList <:+ s.toList := by
  rw [endsWith, ← Bool.not_eq_true, List.isSuffixOf_iff_suffix]

theorem IsPlain.read_id {x : NodeRef} (h : IsPlain x.file) (hfits : x.LinesFit) :
    read x.id = .ok x := by
  have hrule := occursIn_eq_false_iff.2 h.noRule
  have hend := endsWith_eq_false_iff.2 h.noRuleEnd
  cases x with
  | feature f => exact read_of_noMark hrule (occursIn_eq_false_iff.2 h.noScenario)
  | rule f n => exact read_ruleId f hfits
  | scenario f n => exact read_scenarioId hrule hend hfits
  | row f s n => exact read_rowId hrule hend hfits.1 hfits.2

theorem readScenario_cases {file rest : String} {ref : NodeRef}
    (h : readScenario file rest = .ok ref) :
    (∃ line, ref = .scenario file line) ∨ ∃ s line, ref = .row file s line := by
  rw [readScenario] at h
  split at h
  · split at h
    · cases h
    · obtain ⟨n, -, rfl⟩ := exists_of_map_ok h
      exact .inr ⟨_, n, rfl⟩
  · obtain ⟨n, -, rfl⟩ := exists_of_map_ok h
    exact .inl ⟨n, rfl⟩

/-- An id is read as that of a rule, as that of a scenario or row, or as that of a file. -/
theorem read_cases {s : String} {ref : NodeRef} (h : read s = .ok ref) :
    (∃ file rest line, s = file ++ ruleMark ++ rest ∧ readInt rest = .ok line ∧
      ref = .rule file line) ∨
    ¬ruleMark.toList <:+: s.toList ∧
      ((∃ file rest, s = file ++ scenarioMark ++ rest ∧ readScenario file rest = .ok ref) ∨
        ¬scenarioMark.toList <:+: s.toList ∧ ref = .feature s) := by
  rw [read] at h
  split at h
  · rename_i file rest hsplit
    obtain ⟨n, hn, rfl⟩ := exists_of_map_ok h
    exact .inl ⟨file, rest, n, eq_of_splitLast? hsplit, hn, rfl⟩
  · rename_i hrule
    rw [splitLast?, Option.map_eq_none_iff, cutLast?_eq_none_iff] at hrule
    refine .inr ⟨hrule, ?_⟩
    split at h
    · rename_i file rest hsplit
      exact .inl ⟨file, rest, eq_of_splitLast? hsplit, h⟩
    · rename_i hscenario
      rw [splitLast?, Option.map_eq_none_iff, cutLast?_eq_none_iff] at hscenario
      exact .inr ⟨hscenario, (Except.ok.inj h).symm⟩

/-- An id with the mark of a rule is that of a rule, if it is one at all. -/
theorem exists_rule_of_read {s : String} {x : NodeRef} (hmark : ruleMark.toList <:+: s.toList)
    (h : read s = .ok x) : ∃ file line, x = .rule file line := by
  obtain ⟨file, -, line, -, -, hx⟩ := (read_cases h).resolve_right fun hno => hno.1 hmark
  exact ⟨file, line, hx⟩

/-- An id that is read as that of a feature is the id of its file, and has no mark. -/
theorem of_read_feature {s f : String} (h : read s = .ok (.feature f)) :
    f = s ∧ ¬scenarioMark.toList <:+: s.toList := by
  rcases read_cases h with ⟨_, _, _, -, -, he⟩ | ⟨-, ⟨_, _, -, hscenario⟩ | ⟨hno, he⟩⟩
  · cases he
  · rcases readScenario_cases hscenario with ⟨_, he⟩ | ⟨_, _, he⟩ <;> cases he
  · exact ⟨NodeRef.feature.inj he, hno⟩

/-- What can be read of the id of a rule is that rule. -/
theorem eq_of_read_ruleId {f : String} {n : Int} {x : NodeRef} (h : read (ruleId f n) = .ok x) :
    x = .rule f n := by
  rw [ruleId, id, read, splitLast?_ruleMark] at h
  obtain ⟨m, hm, rfl⟩ := exists_of_map_ok h
  rw [eq_of_readInt_toString hm]

/-- If the mark of a rule stands in the id of a scenario, no number follows it, because a colon
does. -/
theorem not_readInt_behind_ruleMark {f file rest : String} {s : Int}
    (h : scenarioId f s = file ++ ruleMark ++ rest) (n : Int) : readInt rest ≠ .ok n := by
  intro hn
  have hrest : ':' ∉ rest.toList := fun hmem => absurd (of_mem_numeral hn hmem) (by decide)
  have hs : ':' ∉ (toString s).toList := not_mem_toString (by decide) (by decide) s
  have hlist := congrArg String.toList h
  simp only [scenarioId, id, String.toList_append] at hlist
  have hcut := cutLast?_append_letter hrest (file.toList ++ ":rule".toList)
  have hcut' := cutLast?_append_letter hs (f.toList ++ ":scenario".toList)
  have hsame : f.toList ++ ":scenario".toList ++ [':'] ++ (toString s).toList =
      file.toList ++ ":rule".toList ++ [':'] ++ rest.toList := by
    simpa [scenarioMark, ruleMark] using hlist
  rw [hsame, hcut, Option.some.injEq, Prod.mk.injEq] at hcut'
  have hlast := congrArg List.getLast? hcut'.1
  simp at hlast

/-- What can be read of the id of a scenario is that scenario. -/
theorem eq_of_read_scenarioId {f : String} {s : Int} {x : NodeRef}
    (h : read (scenarioId f s) = .ok x) : x = .scenario f s := by
  rw [read] at h
  split at h
  · rename_i file rest hsplit
    obtain ⟨m, hm, -⟩ := exists_of_map_ok h
    exact absurd hm (not_readInt_behind_ruleMark (eq_of_splitLast? hsplit) m)
  · rw [scenarioId_eq, splitLast?_scenarioMark] at h
    simp only [readScenario, splitFirst?_exampleMark_none] at h
    obtain ⟨m, hm, rfl⟩ := exists_of_map_ok h
    rw [scenarioTail_none] at hm
    rw [eq_of_readInt_toString hm]

/-- The mark of a rule stands in the id of a scenario or row if the file's id holds it or ends with
all of it but the last colon, since the mark of a scenario begins with a colon. -/
theorem isInfix_ruleMark {f : String} (tail : String)
    (h : ruleMark.toList <:+: f.toList ∨ ":rule".toList <:+ f.toList) :
    ruleMark.toList <:+: (f ++ scenarioMark ++ tail).toList := by
  rw [String.toList_append, String.toList_append]
  rcases h with h | ⟨front, h⟩
  · exact (h.trans (List.prefix_append _ _).isInfix).trans (List.prefix_append _ _).isInfix
  · have hmark : ":rule".toList ++ scenarioMark.toList = ruleMark.toList ++ "scenario:".toList := by
      decide
    rw [← h, List.append_assoc front, hmark]
    exact ⟨front, "scenario:".toList ++ tail.toList, by simp only [List.append_assoc]⟩

/-- A scenario or a row is read from its id only if the file's id allows it. -/
theorem noRule_of_read {f : String} {tail : String} {x : NodeRef}
    (h : read (f ++ scenarioMark ++ tail) = .ok x) (hx : ∀ file line, x ≠ .rule file line) :
    ¬ruleMark.toList <:+: f.toList ∧ ¬":rule".toList <:+ f.toList := by
  rw [← not_or]
  intro hmark
  obtain ⟨file, line, rfl⟩ := exists_rule_of_read (isInfix_ruleMark tail hmark) h
  exact hx file line rfl

theorem read_scenarioId_iff {f : String} {s : Int} (hs : Fits s) :
    read (scenarioId f s) = .ok (.scenario f s) ↔
      ¬ruleMark.toList <:+: f.toList ∧ ¬":rule".toList <:+ f.toList := by
  constructor
  · rw [scenarioId_eq]
    exact fun h => noRule_of_read h nofun
  · rintro ⟨hrule, hend⟩
    exact read_scenarioId (occursIn_eq_false_iff.2 hrule) (endsWith_eq_false_iff.2 hend) hs

theorem read_rowId_iff {f : String} {s e : Int} (hs : Fits s) (he : Fits e) :
    read (rowId f s e) = .ok (.row f s e) ↔
      ¬ruleMark.toList <:+: f.toList ∧ ¬":rule".toList <:+ f.toList := by
  constructor
  · rw [rowId_eq]
    exact fun h => noRule_of_read h nofun
  · rintro ⟨hrule, hend⟩
    exact read_rowId (occursIn_eq_false_iff.2 hrule) (endsWith_eq_false_iff.2 hend) hs he

theorem read_feature_iff {f : String} :
    read f = .ok (.feature f) ↔
      ¬ruleMark.toList <:+: f.toList ∧ ¬scenarioMark.toList <:+: f.toList := by
  constructor
  · refine fun h => ⟨fun hmark => ?_, (of_read_feature h).2⟩
    obtain ⟨file, line, hx⟩ := exists_rule_of_read hmark h
    cases hx
  · rintro ⟨hrule, hscenario⟩
    exact read_of_noMark (occursIn_eq_false_iff.2 hrule) (occursIn_eq_false_iff.2 hscenario)

/-! ## Ids that cannot be read -/

/-- No numeral ends with this letter. -/
theorem not_readInt_of_last {s : String} {n : Int} (hlast : s.toList.getLast? = some 'e')
    (h : readInt s = .ok n) : False :=
  absurd (of_mem_numeral h (List.mem_of_getLast? hlast)) (by decide)

/-- The last letter stands behind a mark that ends otherwise. -/
theorem getLast?_behind {a w b : String} {c : Char} (hw : w.toList ≠ [])
    (hc : w.toList.getLast? ≠ some c) (h : (a ++ w ++ b).toList.getLast? = some c) :
    b.toList.getLast? = some c := by
  rw [String.toList_append, String.toList_append, List.getLast?_append,
    Option.or_eq_some_iff] at h
  rcases h with h | ⟨-, h⟩
  · exact h
  · rw [List.getLast?_append, Option.or_eq_some_iff] at h
    rcases h with h | ⟨hnone, -⟩
    · exact absurd h hc
    · exact absurd (List.getLast?_eq_none_iff.1 hnone) hw

theorem not_readScenario_of_last {file rest : String} {ref : NodeRef}
    (hlast : rest.toList.getLast? = some 'e') (h : readScenario file rest = .ok ref) : False := by
  rw [readScenario] at h
  split at h
  · rename_i before after hsplit
    split at h
    · nomatch h
    · obtain ⟨n, hn, -⟩ := exists_of_map_ok h
      rw [eq_of_splitFirst? hsplit] at hlast
      exact not_readInt_of_last (getLast?_behind (by decide) (by decide) hlast) hn
  · obtain ⟨n, hn, -⟩ := exists_of_map_ok h
    exact not_readInt_of_last hlast hn

/-- An id that ends like that of a feature file is read as that of a file or not at all, since no
number ends so. -/
theorem eq_feature_of_read {s : String} {x : NodeRef} (hend : endsWith s ".feature" = true)
    (h : read s = .ok x) :
    x = .feature s ∧ ¬ruleMark.toList <:+: s.toList ∧ ¬scenarioMark.toList <:+: s.toList := by
  obtain ⟨front, hs⟩ := List.isSuffixOf_iff_suffix.1 hend
  have hlast : s.toList.getLast? = some 'e' := by
    rw [← hs, List.getLast?_append]
    rfl
  rcases read_cases h with ⟨file, rest, n, rfl, hn, -⟩ | ⟨hrule, ⟨file, rest, rfl, hx⟩ | hfile⟩
  · exact (not_readInt_of_last (getLast?_behind (by decide) (by decide) hlast) hn).elim
  · exact (not_readScenario_of_last (getLast?_behind (by decide) (by decide) hlast) hx).elim
  · exact ⟨hfile.2, hrule, hfile.1⟩

/-- What an id was made for is read from it: always for a rule, for a scenario or a row exactly if
the mark of a rule neither stands in the file's id nor begins at its end, and for a feature exactly
if its id holds no mark. So over files with none of these, different nodes have different ids. -/
theorem read_back_iff (f : String) {l s e : Int} (hl : Fits l) (hs : Fits s) (he : Fits e) :
    read (ruleId f l) = .ok (.rule f l) ∧
    (read (scenarioId f s) = .ok (.scenario f s) ↔
      ¬":rule:".toList <:+: f.toList ∧ ¬":rule".toList <:+ f.toList) ∧
    (read (rowId f s e) = .ok (.row f s e) ↔
      ¬":rule:".toList <:+: f.toList ∧ ¬":rule".toList <:+ f.toList) ∧
    (read f = .ok (.feature f) ↔
      ¬":rule:".toList <:+: f.toList ∧ ¬":scenario:".toList <:+: f.toList) ∧
    ∀ x y : NodeRef, IsPlain x.file → IsPlain y.file → x.LinesFit → y.LinesFit →
      x.id = y.id → x = y := by
  refine ⟨read_ruleId f hl, read_scenarioId_iff hs, read_rowId_iff hs he, read_feature_iff, ?_⟩
  intro x y hx hy hxfits hyfits hid
  have hread := hx.read_id hxfits
  rw [hid, hy.read_id hyfits] at hread
  exact (Except.ok.inj hread).symm

/-- A file whose id ends where the mark of a rule could begin: its rules are read back from their
ids, and its scenarios are not. -/
theorem read_back_of_rule_end : Fits 3 ∧ Fits 5 ∧ Fits 8 ∧
    read (ruleId "a:rule" 3) = .ok (.rule "a:rule" 3) ∧
    read (scenarioId "a:rule" 5) ≠ .ok (.scenario "a:rule" 5) ∧
    read "a:rule" = .ok (.feature "a:rule") := by
  have h3 : Fits 3 := ⟨by decide⟩
  have h5 : Fits 5 := ⟨by decide⟩
  have h8 : Fits 8 := ⟨by decide⟩
  have hend : ":rule".toList <:+ "a:rule".toList := ⟨['a'], rfl⟩
  have hmarks : ∀ w, occursIn w "a:rule" = false → ¬w.toList <:+: "a:rule".toList :=
    fun _ => occursIn_eq_false_iff.1
  obtain ⟨hrule, hscenario, -, hfeature, -⟩ := read_back_iff "a:rule" h3 h5 h8
  refine ⟨h3, h5, h8, hrule, fun h => (hscenario.1 h).2 hend, hfeature.2 ?_⟩
  exact ⟨hmarks ":rule:" (by decide), hmarks ":scenario:" (by decide)⟩

end NodeRef

namespace IsFileId

variable {f : String}

theorem not_endsWith_rule (h : IsFileId f) : Text.endsWith f ":rule" = false := by
  have hsuffix := List.isSuffixOf_iff_suffix.1 h.suffix
  refine Bool.eq_false_iff.2 fun hrule => ?_
  have hsub : ":rule".toList <:+ ".feature".toList :=
    List.suffix_of_suffix_length_le (List.isSuffixOf_iff_suffix.1 hrule) hsuffix (by decide)
  exact absurd hsub (by decide)

theorem isPlain (h : IsFileId f) : NodeRef.IsPlain f :=
  ⟨NodeRef.occursIn_eq_false_iff.1 h.noRule, NodeRef.occursIn_eq_false_iff.1 h.noScenario,
    NodeRef.endsWith_eq_false_iff.1 h.not_endsWith_rule⟩

/-- Every id of a node in the file is read back. -/
theorem read_id (h : IsFileId f) {ref : NodeRef} (hfile : ref.file = f) (hfits : ref.LinesFit) :
    NodeRef.read ref.id = .ok ref :=
  (hfile ▸ h.isPlain).read_id hfits

end IsFileId
end FeatureRun
