import FeatureRun.Proofs.Feature.Locate

/-!
# The block of a scenario

The block of a scenario is its header and the lines below it, up to the next header. All example
rows in it are rows of the scenario, and a search upwards from one of its lines finds the header
again. Only a further `Feature:` line, which means nothing to the reader, ends that search early.

* `InBlock`: the lines of a block.
* `scenarioAt?_inBlock`, `scenarioAt?_behind_feature`: what the search upwards finds.
* `eq_of_row_inBlock`, `line_rule_ne`: what the tree has on the lines of a block.
-/
set_option autoImplicit false

namespace FeatureRun.Feature

/-- A line stands in the block of a header: it is that header or stands below it, and no further
header comes up to there. Lines are counted from 1 and positions from 0. -/
structure InBlock (ls : List String) (header line : Int) : Prop where
  le : header ≤ line
  exists_line : line ≤ ls.length
  clear : ∀ k : Nat, header ≤ k → k < line → ¬(textMarks ls).header k

section Search

variable {text : String} {i j : Nat} {l : Line}

/-- A line that opens nothing is passed by. -/
theorem scenarioAt?_succ (hl : (linesOf text)[i + 1]? = some l) (hheader : l.isHeader = false)
    (hfeature : ∀ name, l ≠ .feature name) :
    scenarioAt? text (((i + 1 : Nat) : Int) + 1) = scenarioAt? text ((i : Int) + 1) := by
  have hlt : i < (linesOf text).length :=
    Nat.lt_of_succ_lt (List.getElem?_eq_some_iff.1 hl).1
  have habove : scenarioAt? text ((i : Int) + 1) =
      headerAbove? (i + 1) ((linesOf text).take (i + 1)).reverse := by
    rw [scenarioAt?_of_getElem? (List.getElem?_eq_getElem hlt),
      List.take_succ_eq_append_getElem hlt, List.reverse_append]
    rfl
  rw [scenarioAt?_of_getElem? hl, habove]
  cases l with
  | feature name => exact absurd rfl (hfeature name)
  | rule | outline | scenario => nomatch hheader
  | _ => rfl

theorem isHeader_eq_false (hl : (linesOf text)[i]? = some l)
    (h : ¬(textMarks (strippedLines text)).header i) : l.isHeader = false := by
  rw [← marksOf_linesOf] at h
  exact Bool.eq_false_iff.2 fun hheader => h ⟨l, hl, hheader⟩

/-- Whether a line stands in a block can be read off the lines between. -/
theorem inBlock_of_lines (hij : i ≤ j) (hj : j < (linesOf text).length)
    (hclear : ∀ l ∈ ((linesOf text).take (j + 1)).drop (i + 1), l.isHeader = false) :
    InBlock (strippedLines text) ((i : Int) + 1) ((j : Int) + 1) := by
  refine ⟨by omega, ?_, fun k hik hkj hheader => ?_⟩
  · rw [strippedLines, List.length_map]
    rw [linesOf, List.length_map] at hj
    omega
  · rw [← marksOf_linesOf] at hheader
    obtain ⟨l, hl, hp⟩ := hheader
    have hmem : l ∈ ((linesOf text).take (j + 1)).drop (i + 1) := by
      refine List.mem_of_getElem? (i := k - (i + 1)) ?_
      rw [List.getElem?_drop, Nat.add_sub_cancel' (by omega), List.getElem?_take,
        if_pos (by omega), hl]
    rw [hclear l hmem] at hp
    exact Bool.false_ne_true hp

theorem not_opens_feature (hl : (linesOf text)[i]? = some l) (h : ∀ name, l ≠ .feature name) :
    ¬Opens (strippedLines text) "Feature:" i := by
  intro hopens
  obtain ⟨name, hname⟩ := opens_iff_titled.1 hopens
  exact h name (Option.some.inj (hl.symm.trans (feature_iff.2 hname)))

/-- Lines that open nothing are passed by. -/
theorem scenarioAt?_eq_above (hij : i ≤ j) (hj : j < (linesOf text).length)
    (hheader : ∀ k, i < k → k ≤ j → ¬(textMarks (strippedLines text)).header k)
    (hfeature : ∀ k, i < k → k ≤ j → ¬Opens (strippedLines text) "Feature:" k) :
    scenarioAt? text ((j : Int) + 1) = scenarioAt? text ((i : Int) + 1) := by
  induction hij with
  | refl => rfl
  | @step j hij ih =>
    have hl := List.getElem?_eq_getElem hj
    have hno := isHeader_eq_false hl (hheader _ (Nat.lt_succ_of_le hij) (Nat.le_refl _))
    have hclear := hfeature _ (Nat.lt_succ_of_le hij) (Nat.le_refl _)
    rw [scenarioAt?_succ hl hno]
    · exact ih (Nat.lt_of_succ_lt hj) (fun k hik hkj => hheader k hik (Nat.le_succ_of_le hkj))
        fun k hik hkj => hfeature k hik (Nat.le_succ_of_le hkj)
    · intro name hname
      rw [hname] at hl
      exact hclear (opens_iff_titled.2 ⟨_, feature_iff.1 hl⟩)

/-- A `Feature:` line hides what is above it. -/
theorem scenarioAt?_below_feature (hi : Opens (strippedLines text) "Feature:" i) (hij : i ≤ j)
    (hj : j < (linesOf text).length)
    (hheader : ∀ k, i < k → k ≤ j → ¬(textMarks (strippedLines text)).header k) :
    scenarioAt? text ((j : Int) + 1) = none := by
  induction hij with
  | refl =>
    obtain ⟨name, hname⟩ := opens_iff_titled.1 hi
    rw [scenarioAt?_of_getElem? (feature_iff.2 hname)]
    rfl
  | @step j hij ih =>
    have hl := List.getElem?_eq_getElem hj
    have hno := isHeader_eq_false hl (hheader _ (Nat.lt_succ_of_le hij) (Nat.le_refl _))
    by_cases hfeature : ∃ name, (linesOf text)[j + 1] = .feature name
    · obtain ⟨name, hname⟩ := hfeature
      rw [scenarioAt?_of_getElem? hl, hname]
      rfl
    · rw [scenarioAt?_succ hl hno fun name hname => hfeature ⟨name, hname⟩]
      exact ih (Nat.lt_of_succ_lt hj) fun k hik hkj => hheader k hik (Nat.le_succ_of_le hkj)

end Search

section Read

variable {text path : String} {f : Feature} {s : Scenario} (h : read text path = some f)
  (hs : s ∈ f.scenarios) {n : Int} (hin : InBlock (strippedLines text) s.line n)

include h hs hin

/-- The positions of the header and of a line of its block. -/
theorem InBlock.exists_positions : ∃ i j : Nat, s.line = (i : Int) + 1 ∧ n = (j : Int) + 1 ∧
    i ≤ j ∧ j < (linesOf text).length ∧
    ∀ k, i < k → k ≤ j → ¬(textMarks (strippedLines text)).header k := by
  obtain ⟨i, hi, -⟩ := exists_scenario_line h hs
  obtain ⟨hle, hn, hclear⟩ := hin
  have hlength : (strippedLines text).length = (linesOf text).length := by
    rw [strippedLines, linesOf, List.length_map, List.length_map]
  refine ⟨i, (n - 1).toNat, hi, by omega, by omega, by omega, fun k hik hkj => ?_⟩
  exact hclear k (by omega) (by omega)

/-- The search upwards finds the scenario from every line of its block, -/
theorem scenarioAt?_inBlock
    (hclear : ∀ k : Nat, s.line ≤ k → k < n → ¬Opens (strippedLines text) "Feature:" k) :
    scenarioAt? text n = some ⟨s.name, s.line, s.outline, []⟩ := by
  obtain ⟨i, j, hi, rfl, hij, hj, hheader⟩ := hin.exists_positions h hs
  rw [scenarioAt?_eq_above hij hj hheader fun k hik hkj => hclear k (by omega) (by omega), ← hi]
  exact scenarioAt?_scenario h hs

/-- unless there is a `Feature:` line between. -/
theorem scenarioAt?_behind_feature
    (hfeature : ∃ k : Nat, s.line ≤ k ∧ k < n ∧ Opens (strippedLines text) "Feature:" k) :
    scenarioAt? text n = none := by
  obtain ⟨i, j, hi, rfl, -, hj, hheader⟩ := hin.exists_positions h hs
  obtain ⟨k, hik, hkj, hk⟩ := hfeature
  exact scenarioAt?_below_feature hk (by omega) hj fun m hkm hmj => hheader m (by omega) hmj

/-- No rule stands on a line of the block. -/
theorem line_rule_ne {r : Rule} (hr : r ∈ f.rules) : r.line ≠ n := by
  intro hline
  obtain ⟨i, j, hi, rfl, hij, -, hheader⟩ := hin.exists_positions h hs
  obtain ⟨k, hk, hrule⟩ := exists_rule_line h hr
  obtain rfl : k = j := by omega
  rcases Nat.lt_or_eq_of_le hij with hlt | rfl
  · exact hheader k hlt (Nat.le_refl k) (.inl hrule)
  · -- a rule and the scenario cannot stand on one line
    have hsame := eq_of_line_eq (ordered_read h).lines (mem_nodes_rule hr) (mem_nodes_scenario hs)
      (hline.trans hi.symm)
    nomatch hsame

/-- A row on a line of the block belongs to the scenario. -/
theorem eq_of_row_inBlock {t : Scenario} {row : Row} (ht : t ∈ f.scenarios) (hrow : row ∈ t.rows)
    (hline : row.line = n) : t = s := by
  obtain ⟨i, j, hi, rfl, hij, -, hheader⟩ := hin.exists_positions h hs
  obtain ⟨m, hm, -⟩ := exists_scenario_line h ht
  obtain ⟨i', hi', hopens⟩ := exists_scenario_line h hs
  obtain rfl : i = i' := by omega
  have hne : i ≠ j := by
    rintro rfl
    have hsame := eq_of_line_eq (ordered_read h).lines (mem_nodes_row ht hrow)
      (mem_nodes_scenario hs) (hline.trans hi.symm)
    nomatch hsame
  rw [← marksOf_linesOf] at hheader
  have hnear : NearestAbove (At (linesOf text) Line.isHeader) i j :=
    ⟨by omega, hopens, fun k hik hkj => hheader k hik (Nat.le_of_lt hkj)⟩
  obtain rfl := (nearestHeader_of_mem h ht hrow hm hline).unique hnear
  exact eq_of_line_eq (lines_scenarios (ordered_read h)) ht hs (hm.trans hi.symm)

end Read
end FeatureRun.Feature
