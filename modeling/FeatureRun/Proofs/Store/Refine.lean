import FeatureRun.Proofs.Store.Calls

/-!
# A store holds what its log says

Whatever calls have been made, the store answers as the log of them says: for a node with the last
result that was kept, for a file with those of its nodes, for the history with the runs and how they
ended, and for a new run with a number that has never been given out.

* `Tracks`: how the rows and runs of a store stand to the log, and what each call preserves.
* `Refines`: what the store answers, by the log alone.
* `Reaches.refines`: every store that admissible calls lead to answers so.
-/
set_option autoImplicit false

namespace FeatureRun.Store

theorem targetsOf_targetsText (targets : List String) :
    targetsOf (targetsText targets) = targets := by
  have hplain : (Json.arr (targets.map Json.str)).Plain :=
    .arr (List.forall_mem_map.2 fun t _ => .str t)
  rw [targetsOf, targetsText, itemsOf, Json.document_line hplain]
  simp [Json.items, List.filterMap_map, Function.comp_def, Json.string?]

/-- How a store stands to the log of the calls that it was made by. -/
structure Tracks (log : Log) (s : Store) : Prop where
  kept : ∀ n, s.get? n = lastKept n log
  /-- Every row has the file that its node is in. -/
  files : ∀ n row, s.rows.get? n = some row → fileOf? n = some row.file
  runs : s.runs.map Run.entry = runsOf [] log
  /-- The number of the last run is the largest that has been given out. -/
  bound : ∀ id ∈ givenOut log, id ≤ s.lastRun
  last : s.lastRun = 0 ∨ s.lastRun ∈ givenOut log
  fits : fits s.lastRun = true
  canonical : s.Canonical

section Steps

variable {log : Log} {s : Store}

theorem tracks_empty : Tracks [] .empty where
  kept _ := rfl
  files _ _ h := nomatch h
  runs := rfl
  bound _ h := nomatch h
  last := .inl rfl
  fits := rfl
  canonical := ⟨fun _ _ h => (nomatch h), fun _ h => (nomatch h)⟩

/-! ### Results -/

section Record

variable {run : Option Int} {now : String} {results : List Result}

theorem perform_record (hc : (Call.record run results now).Admissible) :
    s.perform (.record run results now) =
      (.count (results.filter fun r => r.status ≠ .unmatched).length,
        { s with rows := s.rows.insertAll (rowsOf run now results) }) := by
  have hread : ∀ r ∈ results, ∃ ref, NodeRef.read r.id = .ok ref := fun r hr => (hc.2 r hr).2
  rw [← length_rowsOf run now hread, perform, record_eq hc.1 hread]

/-- Of several results of a node the last one is kept. -/
theorem get?_insertAll_rowsOf (hread : ∀ r ∈ results, ∃ ref, NodeRef.read r.id = .ok ref)
    (s : Store) (n : String) :
    ({ s with rows := s.rows.insertAll (rowsOf run now results) } : Store).get? n =
      (lastOf n results).or (s.get? n) := by
  induction results generalizing s with
  | nil => rfl
  | cons r results ih =>
    have ih := ih fun t ht => hread t (List.mem_cons_of_mem r ht)
    obtain ⟨ref, href⟩ := hread r List.mem_cons_self
    rw [rowsOf, href, lastOf_cons, Option.or_assoc]
    by_cases hstatus : r.status = .unmatched
    · simp only [hstatus, if_true, ih, ne_eq, not_true_eq_false, and_false, if_false,
        Option.none_or]
    · have hinsert := ih { s with rows := s.rows.insert r.id (rowOf run now ref.file r) }
      rw [get?_insert_rowOf] at hinsert
      simp only [hstatus, if_false, ne_eq, not_false_eq_true, and_true]
      refine hinsert.trans (congrArg _ ?_)
      by_cases hn : n = r.id <;> simp [hn, eq_comm]

theorem Tracks.record (h : Tracks log s) (hc : (Call.record run results now).Admissible)
    (n : Nat) : Tracks ((.record run results now, .count n) :: log)
      { s with rows := s.rows.insertAll (rowsOf run now results) } :=
  { h with
    kept := by
      intro n
      rw [get?_insertAll_rowsOf fun r hr => (hc.2 r hr).2, h.kept, lastKept]
    files := by
      intro n row hrow
      rcases OrderedMap.mem_of_get?_insertAll hrow with hnew | ⟨-, hold⟩
      · obtain ⟨r, -, -, ref, href, rfl, rfl⟩ := mem_rowsOf.1 hnew
        simp [fileOf?, href, rowOf, Except.toOption]
      · exact h.files n row hold
    runs := h.runs.trans (runsOf_other (by simp) log).symm
    canonical := by
      refine ⟨fun n row hrow => ?_, h.canonical.runs⟩
      rcases OrderedMap.mem_of_get?_insertAll hrow with hnew | ⟨-, hold⟩
      · obtain ⟨r, hr, -, ref, -, rfl, rfl⟩ := mem_rowsOf.1 hnew
        exact (hc.2 r hr).1
      · exact h.canonical.rows n row hold }

end Record

theorem get?_forgetFile_rows (s : Store) (file n : String) :
    (s.forgetFile file).rows.get? n = (s.rows.get? n).filter fun row => row.file ≠ file :=
  OrderedMap.get?_filter s.rows (fun _ row => row.file ≠ file) n

theorem Tracks.forgetFile (h : Tracks log s) (file : String) :
    Tracks ((.forgetFile file, .done) :: log) (s.forgetFile file) :=
  { h with
    kept := by
      intro n
      rw [get?, get?_forgetFile_rows, lastKept, ← h.kept n, get?]
      cases hrow : s.rows.get? n with
      | none => simp
      | some row =>
        rw [h.files n row hrow, Option.filter_some]
        by_cases hfile : row.file = file <;> simp [hfile]
    files := by
      intro n row hrow
      rw [get?_forgetFile_rows, Option.filter_eq_some_iff] at hrow
      exact h.files n row hrow.1
    runs := h.runs.trans (runsOf_other (by simp) log).symm
    canonical := by
      refine ⟨fun n row hrow => ?_, h.canonical.runs⟩
      rw [get?_forgetFile_rows, Option.filter_eq_some_iff] at hrow
      exact h.canonical.rows n row hrow.1 }

/-! ### Runs -/

section Run

variable {run : Int} {targets : List String} {counts : Summary} {status : Option RunStatus}
  {now : String}

theorem perform_startRun (targets : List String) (now : String)
    (hfits : Store.fits (s.lastRun + 1) = true) :
    s.perform (.startRun targets now) = (.run (s.lastRun + 1), { s with
      runs := ⟨s.lastRun + 1, targetsText targets, .running, .empty, now, none⟩ :: s.runs
      lastRun := s.lastRun + 1 }) := by
  rw [perform, Store.startRun]
  simp [hfits]

theorem perform_startRun_full (targets : List String) (now : String)
    (hfits : ¬Store.fits (s.lastRun + 1) = true) :
    s.perform (.startRun targets now) = (.fault .full, s) := by
  rw [perform, Store.startRun]
  simp [hfits]

theorem Tracks.startRun (h : Tracks log s) (targets : List String) (now : String)
    (hfits : Store.fits (s.lastRun + 1) = true) :
    Tracks ((.startRun targets now, .run (s.lastRun + 1)) :: log) { s with
      runs := ⟨s.lastRun + 1, targetsText targets, .running, .empty, now, none⟩ :: s.runs
      lastRun := s.lastRun + 1 } :=
  { h with
    runs := by
      rw [runsOf, List.nil_append, runsOf_other (by simp), ← h.runs, List.map_cons, Run.entry,
        targetsOf_targetsText]
      rfl
    bound := by
      intro id hid
      rcases List.mem_cons.1 hid with rfl | hid
      · exact Int.le_refl _
      · exact Int.le_trans (h.bound id hid) (Int.le_of_lt (Int.lt_succ _))
    last := .inr List.mem_cons_self
    fits := hfits
    canonical := ⟨h.canonical.rows, List.forall_mem_cons.2 ⟨rfl, h.canonical.runs⟩⟩ }

/-- A run that gets no number leaves no trace. -/
theorem Tracks.startRun_full (h : Tracks log s) (targets : List String) (now : String) :
    Tracks ((.startRun targets now, .fault .full) :: log) s :=
  { h with runs := h.runs.trans (runsOf_other (by simp) log).symm }

theorem perform_finishRun (hc : (Call.finishRun run counts status now).Admissible) :
    s.perform (.finishRun run counts status now) = (.done, { s with
      runs := s.runs.map fun r =>
        if r.id = run then
          { r with status := endStatus counts status, counts := counts, finished := some now }
        else r }) := by
  rw [perform, Store.finishRun, if_pos hc.1]

theorem endStatus_eq_outcomeOf (counts : Summary) (status : Option RunStatus) :
    endStatus counts status = outcomeOf counts status := by
  have hnone : endStatus counts none = verdict counts := by
    simp [endStatus, verdict, Summary.success]
  fun_cases outcomeOf counts status with
  | case1 => exact hnone
  | case2 => exact hnone
  | case3 st hst =>
    have hword : st.word ≠ "" := by
      cases st with
      | other word => exact fun h => hst (congrArg _ h)
      | _ => decide
    simp [endStatus, Option.filter_some, hword]

theorem canonical_endStatus (h : ∀ st, status = some st → st.Canonical) :
    (endStatus counts status).Canonical := by
  rw [endStatus]
  cases hgiven : status.filter fun st => st.word ≠ "" with
  | none => rw [Option.getD_none]; split <;> decide
  | some st => exact h st (Option.filter_eq_some_iff.1 hgiven).1

theorem Tracks.finishRun (h : Tracks log s)
    (hc : (Call.finishRun run counts status now).Admissible) :
    Tracks ((.finishRun run counts status now, .done) :: log) { s with
      runs := s.runs.map fun r =>
        if r.id = run then
          { r with status := endStatus counts status, counts := counts, finished := some now }
        else r } :=
  { h with
    runs := by
      rw [runsOf, List.nil_append, runsOf_finishRun, ← h.runs, List.map_map, List.map_map]
      · refine List.map_congr_left fun r _ => ?_
        by_cases hid : r.id = run <;> simp [Run.entry, ended, endStatus_eq_outcomeOf, hid]
      all_goals simp
    canonical := by
      refine ⟨h.canonical.rows, List.forall_mem_map.2 fun r hr => ?_⟩
      split
      · exact canonical_endStatus hc.2
      · exact h.canonical.runs r hr }

end Run

/-! ### All results and runs -/

/-- Clearing a store does not give run numbers free. -/
theorem Tracks.reset (h : Tracks log s) : Tracks ((.reset, .done) :: log) s.reset :=
  { h with
    kept := fun _ => rfl
    files := fun _ _ hrow => nomatch hrow
    runs := rfl
    canonical := ⟨fun _ _ hrow => (nomatch hrow), fun _ hr => (nomatch hr)⟩ }

/-- A store is the same when it is opened again. -/
theorem perform_reopen (h : s.Canonical) : s.perform .reopen = (.done, s) := by
  rw [perform, ofText?_toText h]
  rfl

theorem Tracks.reopen (h : Tracks log s) : Tracks ((.reopen, .done) :: log) s :=
  { h with runs := h.runs.trans (runsOf_other (by simp) log).symm }

end Steps

variable {log : Log} {s : Store}

/-- Every admissible call preserves how the store stands to the log. -/
theorem Tracks.call (h : Tracks log s) {c : Call} (hc : c.Admissible) :
    Tracks ((c, (s.perform c).1) :: log) (s.perform c).2 := by
  cases c with
  | startRun targets now =>
    by_cases hfits : Store.fits (s.lastRun + 1) = true
    · rw [perform_startRun targets now hfits]
      exact h.startRun targets now hfits
    · rw [perform_startRun_full targets now hfits]
      exact h.startRun_full targets now
  | finishRun run counts status now =>
    rw [perform_finishRun hc]
    exact h.finishRun hc
  | record run results now =>
    rw [perform_record hc]
    exact h.record hc _
  | forgetFile file => exact h.forgetFile file
  | reset => exact h.reset
  | reopen =>
    rw [perform_reopen h.canonical]
    exact h.reopen

/-- So it holds after any calls. -/
theorem Reaches.tracks (h : Reaches log s) : Tracks log s := by
  induction h with
  | new => exact tracks_empty
  | call c _ hc ih => exact ih.call hc

/-- Whatever a log says was run got its number from the store. -/
theorem mem_givenOut_of_runsOf {later : Log} {e : RunEntry} (h : e ∈ runsOf later log) :
    e.id ∈ givenOut log := by
  fun_induction runsOf later log with
  | case1 => cases h
  | case2 => cases h
  | case3 later targets now id earlier ih =>
    rcases List.mem_cons.1 h with rfl | h
    · rw [id_entryOf]
      exact List.mem_cons_self
    · exact List.mem_cons_of_mem id (ih h)
  | case4 later call earlier hreset hstart ih =>
    exact ((List.sublist_cons_self call earlier).filterMap _).subset (ih h)

/-- No run has a larger number than the last one that was started. -/
theorem Reaches.id_le_lastRun (h : Reaches log s) : ∀ r ∈ s.runs, r.id ≤ s.lastRun := by
  intro r hr
  have hentry : r.entry ∈ runsOf [] log := h.tracks.runs ▸ List.mem_map_of_mem hr
  exact h.tracks.bound _ (mem_givenOut_of_runsOf hentry)

/-! ## What the store answers -/

/-- What a store answers, by the log of the calls that it was made by. -/
structure Refines (log : Log) (s : Store) : Prop where
  /-- A node has the last result that was kept for it, with all its failures. -/
  get : ∀ n, s.get? n = lastKept n log
  /-- A file has those results whose node is in it, and no others. -/
  getFile : ∀ file n, (s.getFile file).get? n =
    if fileOf? n = some file then lastKept n log else none
  /-- The next call is answered rightly. -/
  answers : ∀ c : Call, c.Admissible → Answers log c (s.perform c).1
  /-- The history has the newest runs first, as many as are asked for. -/
  history : ∀ limit, Store.fits limit = true → s.history limit =
    .ok (if limit < 0 then runsOf [] log else (runsOf [] log).take limit.toNat)

theorem Tracks.getFile (h : Tracks log s) (file n : String) : (s.getFile file).get? n =
    if fileOf? n = some file then lastKept n log else none := by
  have hget : (s.getFile file).get? n =
      ((s.rows.filter fun _ row => row.file = file).get? n).map fun row => row.result n :=
    OrderedMap.get?_ofList_map (s.rows.filter fun _ row => row.file = file)
      (fun id row => Row.result row id) n
  rw [hget, OrderedMap.get?_filter, ← h.kept n, get?]
  cases hrow : s.rows.get? n with
  | none => simp
  | some row =>
    rw [h.files n row hrow, Option.filter_some]
    by_cases hfile : row.file = file <;> simp [hfile]

/-- A number that is not given out any more is only refused once the largest one has been. -/
theorem Tracks.answers (h : Tracks log s) {c : Call} (hc : c.Admissible) :
    Answers log c (s.perform c).1 := by
  cases c with
  | startRun targets now =>
    by_cases hfits : Store.fits (s.lastRun + 1) = true
    · rw [perform_startRun targets now hfits]
      exact .inl ⟨_, rfl, fun old hold => Int.lt_add_one_of_le (h.bound old hold)⟩
    · rw [perform_startRun_full targets now hfits]
      have hlast : s.lastRun = 9223372036854775807 := by
        have := h.fits
        simp only [Store.fits, Bool.and_eq_true, decide_eq_true_eq] at this hfits
        omega
      rcases h.last with hzero | hgiven
      · omega
      · exact .inr ⟨rfl, hlast ▸ hgiven⟩
  | finishRun run counts status now => rw [perform_finishRun hc]; rfl
  | record run results now => rw [perform_record hc]; rfl
  | forgetFile file => rfl
  | reset => rfl
  | reopen => rfl

theorem Tracks.history (h : Tracks log s) {limit : Int} (hfits : Store.fits limit = true) :
    s.history limit =
      .ok (if limit < 0 then runsOf [] log else (runsOf [] log).take limit.toNat) := by
  rw [Store.history, if_pos hfits, ← h.runs, latest, List.map_take]

/-- Every store that admissible calls lead to answers by the log of those calls. -/
theorem Reaches.refines (h : Reaches log s) : Refines log s where
  get := h.tracks.kept
  getFile := h.tracks.getFile
  answers _ hc := h.tracks.answers hc
  history _ hfits := h.tracks.history hfits

/-- A run is started and ended, its results are recorded, one file is forgotten, and the store is
opened again. -/
theorem refines_of_reopened : ∃ log s, Reaches log s ∧
    log.map Prod.fst = [.reopen, .forgetFile "b.feature",
      .record (some 1) [⟨"a.feature", .failed, [⟨"x", "y", 1⟩]⟩, ⟨"b.feature", .passed, []⟩,
        ⟨"a.feature", .unmatched, []⟩] "noon",
      .finishRun 1 ⟨2, 1, 1, 0⟩ none "noon", .startRun ["a.feature", "b.feature"] "dawn"] ∧
    Refines log s := by
  have hfinish : (Call.finishRun 1 ⟨2, 1, 1, 0⟩ none "noon").Admissible :=
    ⟨by decide, fun _ h => (nomatch h)⟩
  have hrecord : (Call.record (some 1) [⟨"a.feature", .failed, [⟨"x", "y", 1⟩]⟩,
      ⟨"b.feature", .passed, []⟩, ⟨"a.feature", .unmatched, []⟩] "noon").Admissible := by
    refine ⟨by decide, ?_⟩
    have ha : ∃ ref, NodeRef.read "a.feature" = .ok ref := ⟨_, rfl⟩
    have hb : ∃ ref, NodeRef.read "b.feature" = .ok ref := ⟨_, rfl⟩
    simp only [List.forall_mem_cons]
    exact ⟨⟨rfl, ha⟩, ⟨rfl, hb⟩, ⟨rfl, ha⟩, fun _ h => (nomatch h)⟩
  have h : Reaches _ _ := .call .reopen (.call (.forgetFile "b.feature") (.call _ (.call _
    (.call (.startRun ["a.feature", "b.feature"] "dawn") .new trivial) hfinish) hrecord)
    trivial) trivial
  exact ⟨_, _, h, rfl, h.refines⟩

end FeatureRun.Store
