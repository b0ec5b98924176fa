import FeatureRun.Proofs.Json.Arrays
import FeatureRun.Proofs.Text.Utf8
import FeatureRun.Report.Stage

/-!
# How a wait for a report ends

A wait looks at the place of the report again and again. It ends with the first look that finds a
JSON array, breaks off at a text that is too much for the reader before that, and gives up when all
looks are used up.

* `sightAt`: what there is to see at each look.
* `WaitEnds`, `await_ends`: how a wait ends, by what the looks find.
* `Sight.isArray_iff`: a look finds a report exactly if the file is a JSON array.
* `await_eq_none_iff`: a wait gives up exactly if it never sees an array.
* `await_first`: a wait gives the first valid report, after as many naps as looks were in vain.
-/
set_option autoImplicit false

namespace FeatureRun.Report

/-- The sight at a look, counted from 0: one sight after another, the last of which stays. -/
def sightAt (now : Sight) (later : List Sight) : Nat → Sight
  | 0 => now
  | n + 1 => sightAt (nextSight now later).1 (nextSight now later).2 n

theorem sightAt_mem (now : Sight) (later : List Sight) (i : Nat) :
    sightAt now later i ∈ now :: later := by
  induction i generalizing now later with
  | zero => exact List.mem_cons_self
  | succ i ih =>
    cases later with
    | nil => exact ih now []
    | cons s later => exact List.mem_cons_of_mem _ (ih s later)

/-- The place of the report holds a file with a JSON array in UTF-8. -/
def Sight.IsArray (levels : Nat) (s : Sight) : Prop :=
  ∃ bytes text vs, s = .file bytes ∧ Text.Utf8.decode bytes = .ok text ∧
    Json.read levels text = .ok (.arr vs)

/-- How a wait of `n` looks ends, and after how many naps. -/
inductive WaitEnds (look : Nat → Look) (n : Nat) :
    Except Json.Excess (Option (List Entry)) → Nat → Prop where
  | report {k : Nat} {entries : List Entry} (hk : k < n) (hlook : look k = .report entries)
    (before : ∀ i < k, ∃ why, look i = .notYet why) : WaitEnds look n (.ok (some entries)) k
  | excess {k : Nat} {e : Json.Excess} (hk : k < n) (hlook : look k = .excess e)
    (before : ∀ i < k, ∃ why, look i = .notYet why) : WaitEnds look n (.error e) k
  | gaveUp (all : ∀ i < n, ∃ why, look i = .notYet why) : WaitEnds look n (.ok none) (n - 1)

/-! ## The loop -/

section Loop

variable {look : Nat → Look} {n naps : Nat} {found : Except Json.Excess (Option (List Entry))}

/-- One look in vain and one nap before a wait. -/
theorem WaitEnds.afterNap {why : NotYet} (h0 : look 0 = .notYet why) (hn : n ≠ 0)
    (h : WaitEnds (fun i => look (i + 1)) n found naps) : WaitEnds look (n + 1) found (naps + 1) := by
  have hfirst : ∃ why, look 0 = .notYet why := ⟨why, h0⟩
  cases h with
  | report hk hlook before =>
    exact .report (Nat.succ_lt_succ hk) hlook (Nat.forall_lt_succ_left.2 ⟨hfirst, before⟩)
  | excess hk hlook before =>
    exact .excess (Nat.succ_lt_succ hk) hlook (Nat.forall_lt_succ_left.2 ⟨hfirst, before⟩)
  | gaveUp all =>
    have hnaps : n - 1 + 1 = n + 1 - 1 := by omega
    rw [hnaps]
    exact .gaveUp (Nat.forall_lt_succ_left.2 ⟨hfirst, all⟩)

theorem awaitFrom_ends (levels : Nat) (shown : String) (total : Int) (attempt left : Nat) (now : Sight)
    (later : List Sight) :
    WaitEnds (fun i => (sightAt now later i).look levels) left
      (awaitFrom levels shown total attempt left now later).found
      (awaitFrom levels shown total attempt left now later).naps := by
  induction left generalizing attempt now later with
  | zero => exact .gaveUp (n := 0) fun i hi => absurd hi (Nat.not_lt_zero i)
  | succ n ih =>
    rw [awaitFrom]
    cases hlook : now.look levels with
    | report entries =>
      exact .report (Nat.succ_pos n) hlook fun i hi => absurd hi (Nat.not_lt_zero i)
    | excess e =>
      exact .excess (Nat.succ_pos n) hlook fun i hi => absurd hi (Nat.not_lt_zero i)
    | notYet why =>
      simp only
      split
      · rename_i hn
        subst hn
        refine .gaveUp (n := 1) fun i hi => ⟨why, ?_⟩
        rw [Nat.lt_one_iff.1 hi]
        exact hlook
      · rename_i hn
        exact (ih (attempt + 1) (nextSight now later).1 (nextSight now later).2).afterNap hlook hn

theorem await_ends (levels : Nat) (shown : String) (attempts : Int) (now : Sight)
    (later : List Sight) :
    WaitEnds (fun i => (sightAt now later i).look levels) attempts.toNat
      (await levels shown attempts now later).found (await levels shown attempts now later).naps :=
  awaitFrom_ends levels shown attempts 1 attempts.toNat now later

end Loop

/-! ## What the looks see -/

section Sights

variable {disk : FileTree} {p : Path} {later : List Stage} {levels : Nat}

theorem diskAfter_nil (n : Nat) : Stage.diskAfter disk p n [] = disk := by
  rw [Stage.diskAfter, List.take_nil]
  rfl

theorem diskAfter_succ (n : Nat) (s : Stage) :
    Stage.diskAfter disk p (n + 1) (s :: later) = Stage.diskAfter (s.apply disk p) p n later := by
  rw [Stage.diskAfter, List.take_succ_cons, Stage.disks, List.getLast?_cons, Option.getD_some]
  rfl

/-- Each look sees the disk as the stages before it have left it. -/
theorem sightAt_disks (n : Nat) :
    sightAt (.at disk p) ((Stage.disks disk p later).map fun t => .at t p) n =
      .at (Stage.diskAfter disk p n later) p := by
  induction n generalizing disk later with
  | zero => rfl
  | succ n ih =>
    cases later with
    | nil =>
      have hlast : sightAt (.at disk p) ((Stage.disks disk p []).map fun t => .at t p) n =
          .at (Stage.diskAfter disk p n []) p := ih
      rw [diskAfter_nil] at hlast ⊢
      exact hlast
    | cons s later =>
      rw [diskAfter_succ]
      exact ih

/-- Only an array is read as a report. -/
theorem read_eq_ok_iff {text : String} {entries : List Entry} : read levels text = .ok entries ↔
    ∃ vs, Json.read levels text = .ok (.arr vs) ∧ vs.map Entry.ofJson = entries := by
  constructor
  · intro h
    rw [read] at h
    split at h
    · nomatch h
    · nomatch h
    · rename_i v hv
      cases v with
      | arr vs => exact ⟨vs, hv, Except.ok.inj h⟩
      | _ => nomatch h
  · rintro ⟨vs, hv, rfl⟩
    rw [read, hv]
    rfl

theorem ofText_eq_report_iff {text : String} {entries : List Entry} :
    Look.ofText levels text = .report entries ↔
      Text.isAllBlank text = false ∧ read levels text = .ok entries := by
  rw [Look.ofText]
  cases Text.isAllBlank text with
  | true => simp
  | false =>
    cases hread : read levels text with
    | ok found => simp
    | error e => cases e <;> simp

/-- A look breaks off a wait only at a text that is too much for the reader. -/
theorem read_of_ofText_excess {text : String} {e : Json.Excess}
    (h : Look.ofText levels text = .excess e) : Json.read levels text = .error (.excess e) := by
  rw [Look.ofText] at h
  split at h
  · nomatch h
  · split at h
    · nomatch h
    · nomatch h
    · rename_i hread
      rw [read] at hread
      split at hread
      · rename_i hjson
        rw [hjson, TextError.excess.inj (Except.error.inj hread), Look.excess.inj h]
      · nomatch hread
      · rename_i v _
        cases v <;> nomatch hread

/-- The place of the report holds a text: a file in UTF-8. -/
def Sight.HasText (s : Sight) (text : String) : Prop :=
  ∃ bytes, s = .file bytes ∧ Text.Utf8.decode bytes = .ok text

/-- The text there is a report: it is not blank, and it is a JSON array. -/
structure Sight.Valid (levels : Nat) (s : Sight) (text : String) : Prop where
  hasText : s.HasText text
  notBlank : Text.isAllBlank text = false
  isArray : ∃ vs, Json.read levels text = .ok (.arr vs)

/-- Without a text there is no report. -/
theorem Sight.look_cases (levels : Nat) (s : Sight) :
    (∃ text, s.HasText text ∧ s.look levels = .ofText levels text) ∨
      ∃ why, s.look levels = .notYet why := by
  cases s with
  | nothing => exact .inr ⟨_, rfl⟩
  | directory => exact .inr ⟨_, rfl⟩
  | file bytes =>
    rw [Sight.look]
    split
    · exact .inr ⟨_, rfl⟩
    · rename_i text hdecode
      exact .inl ⟨text, ⟨bytes, rfl, hdecode⟩, rfl⟩

theorem Sight.HasText.look {s : Sight} {text : String} (h : s.HasText text) :
    s.look levels = .ofText levels text := by
  obtain ⟨bytes, rfl, hdecode⟩ := h
  simp only [Sight.look, hdecode]

theorem Sight.look_eq_report_iff {s : Sight} {entries : List Entry} :
    s.look levels = .report entries ↔
      ∃ text, s.Valid levels text ∧ read levels text = .ok entries := by
  constructor
  · intro hlook
    rcases s.look_cases levels with ⟨text, htext, hof⟩ | ⟨why, hwhy⟩
    · obtain ⟨hblank, hread⟩ := ofText_eq_report_iff.1 (hof.symm.trans hlook)
      obtain ⟨vs, hvs, -⟩ := read_eq_ok_iff.1 hread
      exact ⟨text, ⟨htext, hblank, vs, hvs⟩, hread⟩
    · rw [hwhy] at hlook
      nomatch hlook
  · rintro ⟨text, hvalid, hread⟩
    rw [hvalid.hasText.look]
    exact ofText_eq_report_iff.2 ⟨hvalid.notBlank, hread⟩

/-- A look finds a report exactly if the file is a JSON array. -/
theorem Sight.isArray_iff {s : Sight} :
    s.IsArray levels ↔ ∃ entries, s.look levels = .report entries := by
  simp only [Sight.look_eq_report_iff]
  constructor
  · rintro ⟨bytes, text, vs, rfl, hdecode, hread⟩
    have hblank := Json.isAllBlank_of_read_arr hread
    exact ⟨_, text, ⟨⟨bytes, rfl, hdecode⟩, hblank, vs, hread⟩, read_eq_ok_iff.2 ⟨vs, hread, rfl⟩⟩
  · rintro ⟨entries, text, ⟨⟨bytes, hs, hdecode⟩, -, vs, hread⟩, -⟩
    exact ⟨bytes, text, vs, hs, hdecode, hread⟩

/-! ## What a wait has seen -/

theorem awaitAt_ends (levels : Nat) (disk : FileTree) (p : Path) (attempts : Int)
    (later : List Stage) :
    WaitEnds (fun i => (Sight.at (Stage.diskAfter disk p i later) p).look levels) attempts.toNat
      (awaitAt levels disk p attempts later).found (awaitAt levels disk p attempts later).naps := by
  have hends := await_ends levels p.toString attempts (.at disk p)
    ((Stage.disks disk p later).map fun t => .at t p)
  simp only [sightAt_disks] at hends
  exact hends

/-- A wait that does not break off gives up exactly if none of its looks sees an array. -/
theorem await_eq_none_iff {attempts : Int} {found : Option (List Entry)}
    (h : (awaitAt levels disk p attempts later).found = .ok found) : found = none ↔
      ∀ i : Nat, (i : Int) < attempts →
        ¬(Sight.at (Stage.diskAfter disk p i later) p).IsArray levels := by
  have hends := awaitAt_ends levels disk p attempts later
  rw [h] at hends
  generalize (awaitAt levels disk p attempts later).naps = naps at hends
  simp only [Sight.isArray_iff]
  constructor
  · rintro rfl i hi ⟨entries, hlook⟩
    cases hends with
    | gaveUp all =>
      obtain ⟨why, hwhy⟩ := all i (by omega)
      rw [hlook] at hwhy
      nomatch hwhy
  · intro hnone
    cases hends with
    | report hk hlook => exact absurd ⟨_, hlook⟩ (hnone _ (by omega))
    | gaveUp => rfl

end Sights

/-! ## The first report -/

section First

variable {levels : Nat} {shown : String} {attempts : Int} {now : Sight} {later : List Sight}

/-- The naps of a wait, each of the length that was asked for. -/
def Waited.sleeps (w : Waited) (delay : Float) : List Float := List.replicate w.naps delay

/-- No look meets a text that is too much for the reader. -/
theorem not_excess {s : Sight}
    (h : ∀ text, s.HasText text → ∀ e, Json.read levels text ≠ .error (.excess e))
    (e : Json.Excess) : s.look levels ≠ .excess e := by
  intro hlook
  rcases s.look_cases levels with ⟨text, htext, hof⟩ | ⟨why, hwhy⟩
  · exact h text htext e (read_of_ofText_excess (hof.symm.trans hlook))
  · rw [hwhy] at hlook
    nomatch hlook

theorem not_valid_of_notYet {s : Sight} {why : NotYet} (h : s.look levels = .notYet why)
    (text : String) : ¬s.Valid levels text := by
  intro hvalid
  obtain ⟨vs, hvs⟩ := hvalid.isArray
  rw [Sight.look_eq_report_iff.2 ⟨text, hvalid, read_eq_ok_iff.2 ⟨vs, hvs, rfl⟩⟩] at h
  nomatch h

/-- A wait of at least one look, none of which meets a text with too long a number or too deep a
nesting, always ends well. The first valid report that a look sees is what it gives, read from
exactly the text that was seen; it has then napped as often as there were looks before. If no look
sees a valid report, it gives none, with one nap less than looks. -/
theorem await_first (hattempts : 1 ≤ attempts) (hmild : ∀ i : Nat, (i : Int) < attempts →
      ∀ text, (sightAt now later i).HasText text → ∀ e, Json.read levels text ≠ .error (.excess e)) :
    (∃ found, (await levels shown attempts now later).found = .ok found) ∧
    (∀ (k : Nat) (text : String), (k : Int) < attempts → (sightAt now later k).Valid levels text →
      (∀ i < k, ∀ other, ¬(sightAt now later i).Valid levels other) →
      ∃ entries, read levels text = .ok entries ∧
        (await levels shown attempts now later).found = .ok (some entries) ∧
        ∀ delay, (await levels shown attempts now later).sleeps delay = List.replicate k delay) ∧
    ((∀ k : Nat, (k : Int) < attempts → ∀ text, ¬(sightAt now later k).Valid levels text) →
      (await levels shown attempts now later).found = .ok none ∧
      ∀ delay, (await levels shown attempts now later).sleeps delay =
        List.replicate (attempts - 1).toNat delay) := by
  have hends := await_ends levels shown attempts now later
  simp only [Waited.sleeps]
  generalize (await levels shown attempts now later).found = found at hends ⊢
  generalize (await levels shown attempts now later).naps = naps at hends ⊢
  cases hends with
  | excess hk hlook => exact absurd hlook (not_excess (hmild _ (by omega)) _)
  | gaveUp all =>
    have hnone : ∀ k : Nat, (k : Int) < attempts →
        ∀ text, ¬(sightAt now later k).Valid levels text := by
      intro k hk
      obtain ⟨why, hwhy⟩ := all k (by omega)
      exact not_valid_of_notYet hwhy
    refine ⟨⟨none, rfl⟩, fun k text hk hvalid => absurd hvalid (hnone k hk text), fun _ => ?_⟩
    have hnaps : attempts.toNat - 1 = (attempts - 1).toNat := by omega
    exact ⟨rfl, fun delay => by rw [hnaps]⟩
  | report hk hlook before =>
    obtain ⟨text, hvalid, hread⟩ := Sight.look_eq_report_iff.1 hlook
    have hvain : ∀ i < naps, ∀ other, ¬(sightAt now later i).Valid levels other := fun i hi =>
      let ⟨_, hwhy⟩ := before i hi
      not_valid_of_notYet hwhy
    refine ⟨⟨_, rfl⟩, fun j other hj hother hfirst => ?_, fun hnone => ?_⟩
    · rcases Nat.lt_trichotomy j naps with hlt | rfl | hlt
      · exact absurd hother (hvain j hlt other)
      · obtain ⟨vs, hvs⟩ := hother.isArray
        have hsame := read_eq_ok_iff.2 ⟨vs, hvs, rfl⟩
        have hreport := Sight.look_eq_report_iff.2 ⟨other, hother, hsame⟩
        exact ⟨_, Look.report.inj (hreport.symm.trans hlook) ▸ hsame, rfl, fun _ => rfl⟩
      · exact absurd hvalid (hfirst naps hlt text)
    · exact absurd hvalid (hnone naps (by omega) text)

/-- First there is nothing, then half of an array, and after two naps the array. -/
theorem await_first_of_late_report : ∃ now later entries, (1 : Int) ≤ 5 ∧
    (∀ i : Nat, (i : Int) < 5 → ∀ text, (sightAt now later i).HasText text → ∀ e,
      Json.read 1 text ≠ .error (.excess e)) ∧
    (sightAt now later 2).Valid 1 "[]" ∧ (∀ i < 2, ∀ other, ¬(sightAt now later i).Valid 1 other) ∧
    read 1 "[]" = .ok entries ∧ (await 1 "report.json" 5 now later).found = .ok (some entries) ∧
    ∀ delay, (await 1 "report.json" 5 now later).sleeps delay = [delay, delay] := by
  let half : Sight := .file (Text.Utf8.encode "[")
  let whole : Sight := .file (Text.Utf8.encode "[]")
  have htext : ∀ {s text}, Sight.HasText (.file (Text.Utf8.encode s)) text → text = s := by
    rintro s text ⟨bytes, hbytes, hdecode⟩
    rw [← Sight.file.inj hbytes, Text.Utf8.decode_encode] at hdecode
    exact (Except.ok.inj hdecode).symm
  have hhalf : Json.read 1 "[" = .error (.malformed .expectingValue 1 2 1) := rfl
  have hwhole : Json.read 1 "[]" = .ok (.arr []) := rfl
  have hmild : ∀ i : Nat, (i : Int) < 5 → ∀ text,
      (sightAt .nothing [half, whole] i).HasText text → ∀ e,
      Json.read 1 text ≠ .error (.excess e) := by
    intro i _ text h e
    have hmem := sightAt_mem .nothing [half, whole] i
    simp only [List.mem_cons, List.not_mem_nil, or_false] at hmem
    rcases hmem with hs | hs | hs <;> rw [hs] at h
    · obtain ⟨_, hfile, -⟩ := h
      nomatch hfile
    · rw [htext h, hhalf]
      nofun
    · rw [htext h, hwhole]
      nofun
  have hvalid : Sight.Valid 1 (sightAt .nothing [half, whole] 2) "[]" :=
    ⟨⟨_, rfl, Text.Utf8.decode_encode _⟩, rfl, [], hwhole⟩
  have hvain : ∀ i < 2, ∀ other, ¬(sightAt .nothing [half, whole] i).Valid 1 other := by
    rintro i hi other ⟨h, -, vs, hvs⟩
    match i, hi with
    | 0, _ =>
      obtain ⟨_, hfile, -⟩ := h
      nomatch hfile
    | 1, _ =>
      rw [htext h, hhalf] at hvs
      nomatch hvs
  obtain ⟨entries, hread, hfound, hsleeps⟩ : ∃ entries, read 1 "[]" = .ok entries ∧
      (await 1 "report.json" 5 .nothing [half, whole]).found = .ok (some entries) ∧
      ∀ delay, (await 1 "report.json" 5 .nothing [half, whole]).sleeps delay =
        List.replicate 2 delay :=
    (await_first (by decide) hmild).2.1 2 "[]" (by decide) hvalid hvain
  exact ⟨_, _, entries, by decide, hmild, hvalid, hvain, hread, hfound, hsleeps⟩

end First

end FeatureRun.Report
