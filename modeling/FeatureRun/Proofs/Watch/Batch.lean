import FeatureRun.Proofs.Watch.Overlong
import FeatureRun.Proofs.Workspace.Files
import FeatureRun.Workspace.Opening
import Mathlib.Data.List.Dedup

/-!
# What a batch of changes comes to

The changes of a batch may repeat and contradict each other. What becomes of the files depends on
nothing but the accepted paths and the disk. A path that the system refuses ends the batch.

* `Touches`: a batch has an accepted change of a file.
* `Absorbed`: what taking in changes has made of the files, change by change.
* `takePath`: one change, without its kind and its notes.
* `BatchEffect`, `batchEffect_apply`: the effect of a batch on each file, and that batches with the
  same accepted paths have the same effect.
-/
set_option autoImplicit false

namespace FeatureRun.Watch

/-- A batch has a change of a file, and the watcher accepts it. -/
def Touches (scene : Scene) (cs : List Change) (file : String) : Prop :=
  ∃ c ∈ cs, Concerns scene c file

/-- The accepted paths of two batches form the same set. -/
def SamePaths (scene : Scene) (cs ds : List Change) : Prop :=
  ∀ path, accepts scene.root scene.excluded path = true →
    (path ∈ cs.map Change.path ↔ path ∈ ds.map Change.path)

variable {scene : Scene} {s : State} {c d : Change} {cs ds : List Change} {catalog : Catalog}
  {schedule : Schedule} {file a : String}

theorem touches_concat :
    Touches scene (cs ++ [c]) a ↔ Touches scene cs a ∨ Concerns scene c a := by
  simp [Touches, or_and_right, exists_or]

/-- A change is about one file at most. -/
theorem touches_concat_of_concerns (hc : Concerns scene c file) :
    Touches scene (cs ++ [c]) a ↔ Touches scene cs a ∨ a = file := by
  have hone : Concerns scene c a ↔ a = file :=
    ⟨fun h => h.2.symm.trans hc.2, fun h => h ▸ hc⟩
  rw [touches_concat, hone]

theorem touches_front : Touches scene (front scene cs) file ↔ Touches scene (taken scene cs) file := by
  simp only [Touches, mem_front]

/-! ## File by file -/

/-- What taking in changes has made of a catalog and a schedule. -/
structure Absorbed (scene : Scene) (catalog : Catalog) (schedule : Schedule) (cs : List Change)
    (s : State) : Prop where
  delay : s.schedule.delay = schedule.delay
  /-- A file that is there waits from now on. -/
  present : ∀ file, Touches scene cs file → scene.disk.isFile? (.ofString file) = true →
    s.schedule.deadlines.get? file = some (scene.clock + schedule.delay)
  /-- A file that is not there does not. -/
  gone : ∀ file, Touches scene cs file → scene.disk.isFile? (.ofString file) = false →
    s.schedule.deadlines.get? file = none
  removed : ∀ file, file ∈ s.removed ↔
    Touches scene cs file ∧ scene.disk.isFile? (.ofString file) = false
  once : s.removed.Nodup
  /-- The catalog has lost the removed files and is the same otherwise. -/
  catalog : s.catalog.features.entries =
    catalog.features.entries.filter fun e => decide (e.1 ∉ s.removed)
  /-- Keys without a change keep their deadlines and their order. -/
  others : ∀ keep : String → Bool, (∀ file, keep file = true → ¬Touches scene cs file) →
    s.schedule.deadlines.entries.filter (keep ·.1) = schedule.deadlines.entries.filter (keep ·.1)

theorem absorb_of_concerns (h : Concerns scene c file) : s.absorb scene c =
    if scene.disk.isFile? (.ofString file) then s.touch scene.clock c.kind file
    else s.drop file := by
  obtain ⟨haccepted, rfl⟩ := h
  rw [State.absorb, if_pos haccepted]

theorem absorbed_start (scene : Scene) (catalog : Catalog) (schedule : Schedule) :
    Absorbed scene catalog schedule [] ⟨catalog, schedule, [], []⟩ where
  delay := rfl
  present file h := by simp [Touches] at h
  gone file h := by simp [Touches] at h
  removed file := by simp [Touches]
  once := List.nodup_nil
  catalog := by simp
  others keep h := rfl

/-- It matters which files have a change, and not in which batch. -/
theorem Absorbed.congr (h : Absorbed scene catalog schedule cs s)
    (hsame : ∀ file, Touches scene ds file ↔ Touches scene cs file) :
    Absorbed scene catalog schedule ds s := by
  constructor
  · exact h.delay
  · simpa only [hsame] using h.present
  · simpa only [hsame] using h.gone
  · simpa only [hsame] using h.removed
  · exact h.once
  · exact h.catalog
  · simpa only [hsame] using h.others

/-- Keys that a longer batch has no change of are other ones than the file of its last change. -/
theorem keep_of_concat {keep : String → Bool} (hc : Concerns scene c file)
    (hkeep : ∀ a, keep a = true → ¬Touches scene (cs ++ [c]) a) :
    keep file = false ∧ ∀ a, keep a = true → ¬Touches scene cs a := by
  constructor
  · by_contra hkept
    exact hkeep file (by simpa using hkept) (touches_concat.2 (.inr hc))
  · intro a ha htouched
    exact hkeep a ha (touches_concat.2 (.inl htouched))

theorem filter_keep_filter_ne {keep : String → Bool} (hfile : keep file = false)
    (es : List (String × Float)) :
    (es.filter (·.1 ≠ file)).filter (keep ·.1) = es.filter (keep ·.1) := by
  rw [List.filter_filter]
  refine List.filter_congr fun e _ => ?_
  by_cases he : e.1 = file <;> simp [he, hfile]

theorem Absorbed.touch (h : Absorbed scene catalog schedule cs s) (hc : Concerns scene c file)
    (hfile : scene.disk.isFile? (.ofString file) = true) :
    Absorbed scene catalog schedule (cs ++ [c]) (s.touch scene.clock c.kind file) where
  delay := h.delay
  present a ha hisFile := by
    refine (Schedule.get?_add s.schedule scene.clock file a).trans ?_
    split
    · rw [h.delay]
    · rename_i hne
      exact h.present a (((touches_concat_of_concerns hc).1 ha).resolve_right hne) hisFile
  gone a ha hgone := by
    have hne : a ≠ file := by
      rintro rfl
      simp [hfile] at hgone
    have htouched := ((touches_concat_of_concerns hc).1 ha).resolve_right hne
    exact (Schedule.get?_add s.schedule scene.clock file a).trans
      ((if_neg hne).trans (h.gone a htouched hgone))
  removed a := by
    have hnot : ¬(a = file ∧ scene.disk.isFile? (.ofString a) = false) := by
      rintro ⟨rfl, hgone⟩
      simp [hfile] at hgone
    rw [touches_concat_of_concerns hc, or_and_right, or_iff_left hnot]
    exact h.removed a
  once := h.once
  catalog := h.catalog
  others keep hkeep := by
    obtain ⟨hout, hcs⟩ := keep_of_concat hc hkeep
    have hentries : (s.touch scene.clock c.kind file).schedule.deadlines.entries = _ :=
      Schedule.entries_add s.schedule scene.clock file
    rw [hentries, List.filter_append, filter_keep_filter_ne hout, h.others keep hcs]
    simp [hout]

theorem Absorbed.drop (h : Absorbed scene catalog schedule cs s) (hc : Concerns scene c file)
    (hgone : scene.disk.isFile? (.ofString file) = false) :
    Absorbed scene catalog schedule (cs ++ [c]) (s.drop file) := by
  by_cases hmem : file ∈ s.removed
  · -- the file has been dropped before, and has a change among those before
    rw [drop_of_mem hmem]
    refine h.congr fun a => ?_
    rw [touches_concat_of_concerns hc, or_iff_left_of_imp]
    rintro rfl
    exact ((h.removed a).1 hmem).1
  · obtain ⟨notes, hdrop⟩ := drop_of_not_mem hmem
    rw [hdrop]
    constructor
    · exact h.delay
    · intro a ha hisFile
      have hne : a ≠ file := by
        rintro rfl
        simp [hisFile] at hgone
      have htouched := ((touches_concat_of_concerns hc).1 ha).resolve_right hne
      exact (Schedule.get?_cancel s.schedule file a).trans
        ((if_neg hne).trans (h.present a htouched hisFile))
    · intro a ha hnot
      refine (Schedule.get?_cancel s.schedule file a).trans ?_
      split
      · rfl
      · rename_i hne
        exact h.gone a (((touches_concat_of_concerns hc).1 ha).resolve_right hne) hnot
    · intro a
      rw [touches_concat_of_concerns hc, or_and_right, List.mem_append, h.removed a,
        List.mem_singleton, and_iff_left_of_imp (fun heq : a = file => heq ▸ hgone)]
    · refine List.nodup_append.2 ⟨h.once, List.nodup_singleton file, ?_⟩
      rintro a ha b hb rfl
      exact hmem (List.mem_singleton.1 hb ▸ ha)
    · refine Eq.trans (congrArg (List.filter fun e : String × Feature => e.1 ≠ file) h.catalog) ?_
      rw [List.filter_filter]
      refine List.filter_congr fun e _ => ?_
      simp [and_comm]
    · intro keep hkeep
      obtain ⟨hout, hcs⟩ := keep_of_concat hc hkeep
      exact (filter_keep_filter_ne hout s.schedule.deadlines.entries).trans (h.others keep hcs)

theorem Absorbed.take (h : Absorbed scene catalog schedule cs s) (c : Change) :
    Absorbed scene catalog schedule (cs ++ [c]) (s.absorb scene c) := by
  by_cases hc : ∃ file, Concerns scene c file
  · obtain ⟨file, hc⟩ := hc
    rw [absorb_of_concerns hc]
    split
    · rename_i hfile
      exact h.touch hc hfile
    · rename_i hgone
      exact h.drop hc (by simpa using hgone)
  · have hnone : ∀ file, ¬Concerns scene c file := not_exists.1 hc
    obtain ⟨-, habsorb⟩ | ⟨file, hfile, -⟩ := absorb_cases scene s c
    · rw [habsorb]
      exact h.congr fun a => by simp [touches_concat, hnone]
    · exact (hnone file hfile).elim

theorem absorbed_foldl (h : Absorbed scene catalog schedule cs s) (ds : List Change) :
    Absorbed scene catalog schedule (cs ++ ds) (ds.foldl (State.absorb scene) s) := by
  induction ds generalizing cs s with
  | nil => simpa using h
  | cons d ds ih => simpa using ih (h.take d)

/-- What a whole batch makes of the files. -/
theorem absorbed_apply (scene : Scene) (catalog : Catalog) (schedule : Schedule)
    (cs : List Change) :
    Absorbed scene catalog schedule (taken scene cs) (apply scene catalog schedule cs).2 := by
  have h := absorbed_foldl (absorbed_start scene catalog schedule) (front scene cs)
  rw [state_apply]
  exact h.congr fun file => touches_front.symm

/-! ## Path by path -/

/-- A state without its notes. -/
def State.bare (s : State) : State := { s with notes := [] }

/-- Takes in a change of a path, of whatever kind, and notes nothing. -/
def State.takePath (scene : Scene) (s : State) (path : String) : State :=
  (s.absorb scene ⟨.modified, path⟩).bare

theorem bare_drop (s : State) (file : String) : (s.drop file).bare =
    if file ∈ s.removed then s.bare
    else ⟨s.catalog.removeFile file, s.schedule.cancel file, s.removed ++ [file], []⟩ := by
  split
  · rename_i hmem
    rw [drop_of_mem hmem]
  · rename_i hmem
    obtain ⟨notes, hdrop⟩ := drop_of_not_mem hmem
    rw [hdrop]
    rfl

theorem bare_absorb (scene : Scene) (s : State) (c : Change) :
    (s.absorb scene c).bare = s.bare.takePath scene c.path := by
  simp only [State.takePath, State.absorb]
  split
  · split
    · rfl
    · simp only [bare_drop]
      rfl
  · rfl

theorem bare_foldl (scene : Scene) (s : State) (cs : List Change) :
    (cs.foldl (State.absorb scene) s).bare =
      (cs.map Change.path).foldl (State.takePath scene) s.bare := by
  induction cs generalizing s with
  | nil => rfl
  | cons c cs ih => rw [List.foldl_cons, ih, bare_absorb, List.map_cons, List.foldl_cons]

theorem takePath_of_rejected {path : String}
    (h : accepts scene.root scene.excluded path = false) (s : State) :
    s.bare.takePath scene path = s.bare := by
  simp [State.takePath, State.absorb, h, State.bare]

/-- A path that is there twice in a row does what it does once. -/
theorem takePath_takePath (scene : Scene) (s : State) (path : String) :
    (s.takePath scene path).takePath scene path = s.takePath scene path := by
  simp only [State.takePath, State.absorb]
  split
  · split
    · simp only [State.touch, State.noting, State.bare, Schedule.add_add]
    · -- once dropped, the file is among those that are gone
      generalize Path.normalize scene.directory path = file
      have hmem : file ∈ (s.drop file).bare.removed := by
        rw [bare_drop]
        split
        · assumption
        · simp
      rw [drop_of_mem hmem]
      rfl
  · rfl

theorem foldl_takePath_filter (scene : Scene) (s : State) (ps : List String) :
    ps.foldl (State.takePath scene) s.bare =
      (ps.filter (accepts scene.root scene.excluded)).foldl (State.takePath scene) s.bare := by
  induction ps generalizing s with
  | nil => rfl
  | cons p ps ih =>
    cases hp : accepts scene.root scene.excluded p with
    | true =>
      rw [List.filter_cons_of_pos hp]
      exact ih (s.bare.absorb scene ⟨.modified, p⟩)
    | false => simpa [hp, takePath_of_rejected hp] using ih s

/-- In a sorted list a path that is there again is there next. -/
theorem foldl_takePath_dedup {ps : List String} (hps : ps.Pairwise (· ≤ ·)) (scene : Scene)
    (s : State) :
    ps.foldl (State.takePath scene) s = ps.dedup.foldl (State.takePath scene) s := by
  induction ps generalizing s with
  | nil => rfl
  | cons p ps ih =>
    obtain ⟨hle, hps⟩ := List.pairwise_cons.1 hps
    by_cases hp : p ∈ ps
    · rw [List.dedup_cons_of_mem hp, ← ih hps]
      cases ps with
      | nil => nomatch hp
      | cons q qs =>
        have hq : q ≤ p := by
          rcases List.mem_cons.1 hp with rfl | hp
          · exact String.le_refl p
          · exact (List.pairwise_cons.1 hps).1 p hp
        obtain rfl : p = q := String.le_antisymm (hle q List.mem_cons_self) hq
        simp only [List.foldl_cons, takePath_takePath]
    · rw [List.dedup_cons_of_notMem hp, List.foldl_cons, List.foldl_cons, ih hps]

/-- The accepted paths of the changes that are taken in, in order and each once. -/
def acceptedPaths (scene : Scene) (cs : List Change) : List String :=
  (((front scene cs).map Change.path).filter (accepts scene.root scene.excluded)).dedup

theorem sorted_paths_front (scene : Scene) (cs : List Change) :
    ((front scene cs).map Change.path).Pairwise (· ≤ ·) :=
  List.pairwise_map.2 ((sorted_inOrder cs).sublist (List.takeWhile_sublist _))

theorem mem_acceptedPaths {path : String} : path ∈ acceptedPaths scene cs ↔
    path ∈ (taken scene cs).map Change.path ∧ accepts scene.root scene.excluded path = true := by
  simp [acceptedPaths, mem_front]

theorem accepts_of_blocked {e : FileFault} (h : blocked? scene c = some e) :
    accepts scene.root scene.excluded c.path = true := by
  by_contra hrejected
  rw [blocked?, if_neg hrejected] at h
  cases h

/-- Blocked paths are accepted ones, so two batches with the same accepted paths have the same
blocked ones. -/
theorem SamePaths.blocked (h : SamePaths scene cs ds) {e : FileFault} (hd : d ∈ ds)
    (hblocked : blocked? scene d = some e) :
    ∃ c ∈ cs, c.path = d.path ∧ blocked? scene c = some e := by
  have hmem := (h d.path (accepts_of_blocked hblocked)).2 (List.mem_map_of_mem hd)
  obtain ⟨c, hc, hpath⟩ := List.mem_map.1 hmem
  exact ⟨c, hc, hpath, (blocked?_congr hpath).trans hblocked⟩

theorem SamePaths.symm (h : SamePaths scene cs ds) : SamePaths scene ds cs :=
  fun path hpath => (h path hpath).symm

/-- The accepted paths before a change are blocked in neither batch or in both. -/
theorem SamePaths.clear (h : SamePaths scene cs ds) (before : String → Prop)
    (hcs : ∀ d ∈ cs, before d.path → blocked? scene d = none) :
    ∀ d ∈ ds, before d.path → blocked? scene d = none := by
  intro d hd hbefore
  cases hblocked : blocked? scene d with
  | none => rfl
  | some e =>
    obtain ⟨c, hc, hpath, hc'⟩ := h.blocked hd hblocked
    rw [hcs c hc (hpath ▸ hbefore)] at hc'
    nomatch hc'

theorem SamePaths.taken (h : SamePaths scene cs ds) :
    SamePaths scene (taken scene cs) (taken scene ds) := by
  have himp : ∀ {cs ds : List Change}, SamePaths scene cs ds → ∀ path,
      accepts scene.root scene.excluded path = true →
      path ∈ (Watch.taken scene cs).map Change.path →
      path ∈ (Watch.taken scene ds).map Change.path := by
    intro cs ds h path hpath hmem
    obtain ⟨c, hc, rfl⟩ := List.mem_map.1 hmem
    obtain ⟨hc, hclear⟩ := mem_taken_iff.1 hc
    obtain ⟨d, hd, hsame⟩ := List.mem_map.1 ((h c.path hpath).1 (List.mem_map_of_mem hc))
    refine List.mem_map.2 ⟨d, mem_taken_iff.2 ⟨hd, ?_⟩, hsame⟩
    rw [hsame]
    exact h.clear (· ≤ c.path) hclear
  exact fun path hpath => ⟨himp h path hpath, himp h.symm path hpath⟩

/-- The accepted paths are told from their set. -/
theorem acceptedPaths_congr (h : SamePaths scene cs ds) :
    acceptedPaths scene cs = acceptedPaths scene ds := by
  have hsorted (cs : List Change) : (acceptedPaths scene cs).Pairwise (· ≤ ·) :=
    ((sorted_paths_front scene cs).filter _).sublist (List.dedup_sublist _)
  have hperm : (acceptedPaths scene cs).Perm (acceptedPaths scene ds) := by
    refine (List.perm_ext_iff_of_nodup (List.nodup_dedup _) (List.nodup_dedup _)).2 fun path => ?_
    exact mem_acceptedPaths.trans ((and_congr_left (h.taken path)).trans mem_acceptedPaths.symm)
  exact hperm.eq_of_pairwise (fun a b _ _ => String.le_antisymm) (hsorted cs) (hsorted ds)

/-- A batch acts through its accepted paths. -/
theorem bare_apply (scene : Scene) (catalog : Catalog) (schedule : Schedule) (cs : List Change) :
    (apply scene catalog schedule cs).2.bare =
      (acceptedPaths scene cs).foldl (State.takePath scene) ⟨catalog, schedule, [], []⟩ := by
  rw [state_apply, bare_foldl, foldl_takePath_filter,
    foldl_takePath_dedup ((sorted_paths_front scene cs).filter _)]
  rfl

/-! ## Where a batch breaks off -/

theorem result_apply (scene : Scene) (catalog : Catalog) (schedule : Schedule)
    (cs : List Change) : (apply scene catalog schedule cs).1 =
      match (inOrder cs).findSome? (blocked? scene) with
      | some e => .error e
      | none => .ok () :=
  congrArg Prod.fst (takeAll_eq scene ⟨catalog, schedule, [], []⟩ (inOrder cs))

/-- A batch is taken in as a whole if no change of it is blocked, -/
theorem apply_ok_iff : (apply scene catalog schedule cs).1 = .ok () ↔
    ∀ c ∈ cs, blocked? scene c = none := by
  have hnone : (inOrder cs).findSome? (blocked? scene) = none ↔
      ∀ c ∈ cs, blocked? scene c = none :=
    List.findSome?_eq_none_iff.trans (forall_congr' fun _ => imp_congr_left mem_inOrder)
  rw [result_apply, ← hnone]
  cases (inOrder cs).findSome? (blocked? scene) <;> simp

/-- and otherwise breaks off at the first path that is blocked. -/
theorem apply_error_iff {e : FileFault} : (apply scene catalog schedule cs).1 = .error e ↔
    ∃ c ∈ cs, blocked? scene c = some e ∧
      ∀ d ∈ cs, d.path < c.path → blocked? scene d = none := by
  have hfirst : ∀ e, (apply scene catalog schedule cs).1 = .error e → ∃ c ∈ cs,
      blocked? scene c = some e ∧ ∀ d ∈ cs, d.path < c.path → blocked? scene d = none := by
    intro e he
    rw [result_apply] at he
    split at he
    · rename_i e' hsome
      cases he
      obtain ⟨early, c, late, hsplit, hc, hearly⟩ := List.findSome?_eq_some_iff.1 hsome
      have hsorted := sorted_inOrder cs
      rw [hsplit, List.pairwise_append, List.pairwise_cons] at hsorted
      refine ⟨c, mem_inOrder.1 (hsplit ▸ by simp), hc, fun d hd hlt => ?_⟩
      rw [← mem_inOrder, hsplit, List.mem_append] at hd
      rcases hd with hd | hd
      · exact hearly d hd
      · -- what comes later has no smaller path
        have hle : c.path ≤ d.path := by
          rcases List.mem_cons.1 hd with rfl | hd
          · exact String.le_refl _
          · exact hsorted.2.1.1 d hd
        exact absurd hlt hle
    · nomatch he
  refine ⟨hfirst e, fun ⟨c, hc, hblocked, hbefore⟩ => ?_⟩
  cases hout : (apply scene catalog schedule cs).1 with
  | ok u =>
    rw [apply_ok_iff.1 hout c hc] at hblocked
    nomatch hblocked
  | error e' =>
    obtain ⟨d, hd, hblocked', hbefore'⟩ := hfirst e' hout
    have hle : d.path ≤ c.path := fun hlt => by
      rw [hbefore' c hc hlt] at hblocked
      nomatch hblocked
    have hge : c.path ≤ d.path := fun hlt => by
      rw [hbefore d hd hlt] at hblocked'
      nomatch hblocked'
    rw [blocked?_congr (String.le_antisymm hle hge), hblocked] at hblocked'
    exact congrArg Except.error (Option.some.inj hblocked'.symm)

theorem result_apply_congr (h : SamePaths scene cs ds) :
    (apply scene catalog schedule ds).1 = (apply scene catalog schedule cs).1 := by
  cases hout : (apply scene catalog schedule cs).1 with
  | ok u => exact apply_ok_iff.2 fun d hd =>
      h.clear (fun _ => True) (fun c hc _ => apply_ok_iff.1 hout c hc) d hd trivial
  | error e =>
    obtain ⟨c, hc, hblocked, hbefore⟩ := apply_error_iff.1 hout
    obtain ⟨d, hd, hpath, hblocked'⟩ := h.symm.blocked hc hblocked
    exact apply_error_iff.2 ⟨d, hd, hblocked', hpath ▸ h.clear (· < c.path) hbefore⟩

/-! ## The whole batch -/

theorem Absorbed.get?_catalog (h : Absorbed scene catalog schedule cs s) (file : String) :
    s.catalog.get? file = if file ∈ s.removed then none else catalog.get? file := by
  refine Option.ext fun f => ?_
  rw [Catalog.get?, ← OrderedMap.mem_entries_iff, h.catalog, List.mem_filter,
    OrderedMap.mem_entries_iff]
  split <;> simp_all [Catalog.get?]

theorem Absorbed.get?_of_not_touches (h : Absorbed scene catalog schedule cs s)
    (hfile : ¬Touches scene cs file) :
    s.schedule.deadlines.get? file = schedule.deadlines.get? file := by
  have hothers := h.others (fun a => decide (a = file)) fun a ha => by
    obtain rfl : a = file := of_decide_eq_true ha
    exact hfile
  refine Option.ext fun deadline => ?_
  have hmem (m : OrderedMap String Float) : m.get? file = some deadline ↔
      (file, deadline) ∈ m.entries.filter fun e => decide (e.1 = file) := by
    simp [OrderedMap.mem_entries_iff]
  rw [hmem, hmem, hothers]

theorem nodup_touched_round {now : Float} {touched : List String}
    (h : (round scene catalog schedule cs now).touched = .ok touched) : touched.Nodup := by
  have habsorbed := absorbed_apply scene catalog schedule cs
  rw [round] at h
  split at h
  · cases h
  · rename_i s hs
    rw [hs] at habsorbed
    cases h
    have hdue : (s.schedule.due now).Nodup :=
      s.schedule.deadlines.nodup_keys.sublist (List.filter_sublist.map _)
    refine List.nodup_append.2 ⟨habsorbed.once, hdue.filter _, ?_⟩
    rintro a ha b hb rfl
    simp [ha] at hb

/-- What a batch leads to, told from the files that it touches and from its accepted paths. -/
structure BatchEffect (scene : Scene) (catalog : Catalog) (schedule : Schedule)
    (cs : List Change) (out : Except FileFault Unit) (s : State) : Prop where
  /-- The batch breaks off at the first path that is blocked, -/
  fault : ∀ e, out = .error e ↔ ∃ c ∈ cs, blocked? scene c = some e ∧
    ∀ d ∈ cs, d.path < c.path → blocked? scene d = none
  /-- and is taken in as a whole if there is none. -/
  whole : out = .ok () → taken scene cs = cs
  /-- A touched file that is there gets a fresh deadline, and the catalog keeps what it has. -/
  present : ∀ file, Touches scene (taken scene cs) file →
    scene.disk.isFile? (.ofString file) = true →
    file ∈ s.schedule.pending ∧
      s.schedule.deadlines.get? file = some (scene.clock + schedule.delay) ∧
      s.catalog.get? file = catalog.get? file ∧ file ∉ s.removed
  /-- A touched file that is not there is forgotten, and listed once. -/
  gone : ∀ file, Touches scene (taken scene cs) file →
    scene.disk.isFile? (.ofString file) = false →
    file ∉ s.schedule.pending ∧ s.catalog.get? file = none ∧ s.removed.count file = 1
  /-- All other files are left alone. -/
  untouched : ∀ file, ¬Touches scene (taken scene cs) file →
    s.schedule.deadlines.get? file = schedule.deadlines.get? file ∧
      s.catalog.get? file = catalog.get? file ∧ file ∉ s.removed
  /-- Nor are they moved among each other. -/
  unmoved : ∀ keep : String → Bool,
    (∀ file, keep file = true → ¬Touches scene (taken scene cs) file) →
    s.schedule.deadlines.entries.filter (keep ·.1) = schedule.deadlines.entries.filter (keep ·.1)
  /-- Kinds, order and repetitions do not matter. -/
  same : ∀ ds, SamePaths scene cs ds →
    (apply scene catalog schedule ds).1 = out ∧
      (apply scene catalog schedule ds).2.removed = s.removed ∧
      (apply scene catalog schedule ds).2.schedule = s.schedule ∧
      (apply scene catalog schedule ds).2.catalog = s.catalog

theorem effect_apply (scene : Scene) (catalog : Catalog) (schedule : Schedule)
    (cs : List Change) : BatchEffect scene catalog schedule cs
      (apply scene catalog schedule cs).1 (apply scene catalog schedule cs).2 := by
  have habsorbed := absorbed_apply scene catalog schedule cs
  constructor
  · exact fun e => apply_error_iff
  · exact fun hok => taken_eq_self (apply_ok_iff.1 hok)
  · intro file htouched hisFile
    have hdeadline := habsorbed.present file htouched hisFile
    have hkept : file ∉ (apply scene catalog schedule cs).2.removed := by
      simp [habsorbed.removed, hisFile]
    refine ⟨Schedule.mem_pending_iff.2 (by simp [hdeadline]), hdeadline, ?_, hkept⟩
    exact (habsorbed.get?_catalog file).trans (if_neg hkept)
  · intro file htouched hgone
    have hdeadline := habsorbed.gone file htouched hgone
    have hremoved := (habsorbed.removed file).2 ⟨htouched, hgone⟩
    refine ⟨by simp [Schedule.mem_pending_iff, hdeadline], ?_, ?_⟩
    · exact (habsorbed.get?_catalog file).trans (if_pos hremoved)
    · exact List.count_eq_one_of_mem habsorbed.once hremoved
  · intro file huntouched
    have hkept : file ∉ (apply scene catalog schedule cs).2.removed := by
      simp [habsorbed.removed, huntouched]
    refine ⟨habsorbed.get?_of_not_touches huntouched, ?_, hkept⟩
    exact (habsorbed.get?_catalog file).trans (if_neg hkept)
  · exact habsorbed.others
  · intro ds hsame
    have hbare : (apply scene catalog schedule ds).2.bare =
        (apply scene catalog schedule cs).2.bare := by
      rw [bare_apply, bare_apply, acceptedPaths_congr hsame]
    simp only [State.bare, State.mk.injEq] at hbare
    obtain ⟨hcatalog, hschedule, hremoved, -⟩ := hbare
    exact ⟨result_apply_congr hsame, hremoved, hschedule, hcatalog⟩

theorem touched_round (scene : Scene) (catalog : Catalog) (schedule : Schedule)
    (cs : List Change) (now : Float) :
    (∀ e, (apply scene catalog schedule cs).1 = .error e →
      (round scene catalog schedule cs now).touched = .error e) ∧
    ((apply scene catalog schedule cs).1 = .ok () →
      ∃ touched, (round scene catalog schedule cs now).touched = .ok touched) := by
  rw [round]
  split
  · rename_i e s hs
    rw [hs]
    refine ⟨fun _ h => congrArg Except.error (Except.error.inj h), fun h => ?_⟩
    cases h
  · rename_i s hs
    rw [hs]
    refine ⟨fun e h => ?_, fun _ => ⟨_, rfl⟩⟩
    cases h

/-- A batch acts through the set of its accepted paths and the disk. It breaks off only where the
system does not say whether a file is there, and otherwise a round of watching lists no file
twice. -/
theorem batchEffect_apply (scene : Scene) (catalog : Catalog) (schedule : Schedule)
    (cs : List Change) :
    BatchEffect scene catalog schedule cs (apply scene catalog schedule cs).1
      (apply scene catalog schedule cs).2 ∧
    ∀ now w,
      ((∀ c ∈ cs, blocked? w.scene c = none) →
        ∃ touched w', Workspace.poll cs now w = (.ok touched, w') ∧ touched.Nodup) ∧
      ∀ e, (apply w.scene w.catalog w.schedule cs).1 = .error e →
        ∃ w', Workspace.poll cs now w = (.error (.file e), w') := by
  refine ⟨effect_apply scene catalog schedule cs, fun now w => ?_⟩
  obtain ⟨w', hpoll, -⟩ := Workspace.poll_eq cs now w rfl
  obtain ⟨hbroken, hwhole⟩ := touched_round w.scene w.catalog w.schedule cs (now.getD w.clock)
  constructor
  · intro hclear
    obtain ⟨touched, htouched⟩ := hwhole (apply_ok_iff.2 hclear)
    rw [htouched] at hpoll
    exact ⟨touched, w', hpoll, nodup_touched_round htouched⟩
  · intro e he
    rw [hbroken e he] at hpoll
    exact ⟨w', hpoll⟩

/-- A path that the system refuses is accepted, and there is no such file. The round lists nothing. -/
theorem not_listed_of_refused_path :
    let w : Workspace := .start ⟨.dir [("w", .dir [])], .empty, .new, "/w", "", 0, 0, [], [], .usual⟩
    accepts w.root w.settings.excludeDirs overlongPath = true ∧
    w.disk.isFile? (.ofString overlongPath) = false ∧
    ∃ e w', Workspace.poll [⟨.deleted, overlongPath⟩] none w = (.error e, w') := by
  intro w
  have hroot : w.root = ⟨.slash, ["w"]⟩ := rfl
  obtain ⟨e, happly⟩ : ∃ e, apply w.scene w.catalog w.schedule [⟨.deleted, overlongPath⟩] =
      (.error e, ⟨w.catalog, w.schedule, [], []⟩) := by
    rw [apply_of_sorted _ _ _ (List.pairwise_singleton _ _)]
    exact takeAll_overlong hroot rfl _ _ _
  exact ⟨hroot ▸ accepts_overlong _, isFile?_overlong [], _, _, Workspace.poll_of_broken none happly⟩

end FeatureRun.Watch
