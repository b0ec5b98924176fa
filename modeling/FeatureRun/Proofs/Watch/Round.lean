import FeatureRun.Proofs.Catalog.Update
import FeatureRun.Proofs.Watch.Schedule
import FeatureRun.Watch.Basic

/-!
# One round of watching

A file is settled if it waits to be read or if the catalog has what is on the disk. No round
unsettles a file, and it settles every file that the changes taken in are about, whatever kind of
change is reported. Only the changes from one on of which the system does not say whether its file
is there are not taken in.

* `Settled`: a file is pending or up to date.
* `blocked?`, `taken`: where a batch breaks off, and what is taken in of it.
* `settled_round`: what one round does to settled files.
* `get?_of_round`, `mem_pending_of_round`: where the rest comes from that a round leaves.
-/
set_option autoImplicit false

namespace FeatureRun.Watch

open Catalog (onDisk)

/-- A file waits to be read, or the catalog has what reading it now would give. -/
def Settled (disk : FileTree) (catalog : Catalog) (schedule : Schedule) (file : String) : Prop :=
  file ∈ schedule.pending ∨ catalog.get? file = onDisk disk file

/-- A change is about a file, and the watcher accepts it. -/
def Concerns (scene : Scene) (c : Change) (file : String) : Prop :=
  accepts scene.root scene.excluded c.path = true ∧ Path.normalize scene.directory c.path = file

variable {scene : Scene} {s : State} {c d : Change} {cs : List Change} {catalog : Catalog}
  {schedule : Schedule} {file a : String} {now : Float}

/-! ## What the system does not say -/

/-- Why the system does not say whether the file of an accepted change is there. -/
def blocked? (scene : Scene) (c : Change) : Option FileFault :=
  if accepts scene.root scene.excluded c.path then
    match scene.disk.checkFile (.ofString (Path.normalize scene.directory c.path)) with
    | .error e => some e
    | .ok _ => none
  else none

/-- The changes of a batch that come, in the order of their paths, before all that are blocked. -/
def taken (scene : Scene) (cs : List Change) : List Change :=
  cs.filter fun c => cs.all fun d => !(d.path ≤ c.path) || (blocked? scene d).isNone

/-- Takes in a change that is not blocked. -/
def State.absorb (scene : Scene) (s : State) (c : Change) : State :=
  if accepts scene.root scene.excluded c.path then
    let file := Path.normalize scene.directory c.path
    if scene.disk.isFile? (.ofString file) then s.touch scene.clock c.kind file else s.drop file
  else s

theorem mem_taken_iff : c ∈ taken scene cs ↔
    c ∈ cs ∧ ∀ d ∈ cs, d.path ≤ c.path → blocked? scene d = none := by
  simp [taken, Decidable.imp_iff_not_or]

/-- Only the path of a change can be blocked. -/
theorem blocked?_congr (h : c.path = d.path) : blocked? scene c = blocked? scene d := by
  rw [blocked?, h, blocked?]

/-- Nothing is left out of a batch of which nothing is blocked. -/
theorem taken_eq_self (h : ∀ c ∈ cs, blocked? scene c = none) : taken scene cs = cs := by
  refine List.filter_eq_self.2 fun c _ => List.all_eq_true.2 fun d hd => ?_
  rw [h d hd, Option.isNone_none, Bool.or_true]

theorem take_eq (scene : Scene) (s : State) (c : Change) : s.take scene c =
    match blocked? scene c with
    | some e => .error e
    | none => .ok (s.absorb scene c) := by
  rw [State.take, blocked?, State.absorb]
  cases accepts scene.root scene.excluded c.path with
  | false => rfl
  | true =>
    simp only [if_true, FileTree.checkFile]
    cases scene.disk.isRefused (.ofString (Path.normalize scene.directory c.path)) with
    | true => rfl
    | false =>
      cases scene.disk.isFile? (.ofString (Path.normalize scene.directory c.path)) <;> rfl

/-- Changes are taken in up to the first one that is blocked. -/
theorem takeAll_eq (scene : Scene) (s : State) (cs : List Change) : s.takeAll scene cs =
    (match cs.findSome? (blocked? scene) with
      | some e => .error e
      | none => .ok (),
    (cs.takeWhile fun c => (blocked? scene c).isNone).foldl (State.absorb scene) s) := by
  induction cs generalizing s with
  | nil => rfl
  | cons c cs ih =>
    rw [State.takeAll, take_eq, List.findSome?_cons, List.takeWhile_cons]
    cases blocked? scene c with
    | some e => rfl
    | none => exact ih _

/-- Of changes in the order of their paths those are taken in that come before all that are
blocked. -/
theorem mem_takeWhile_iff (hsorted : cs.Pairwise fun a b => a.path ≤ b.path) :
    c ∈ cs.takeWhile (fun c => (blocked? scene c).isNone) ↔
      c ∈ cs ∧ ∀ d ∈ cs, d.path ≤ c.path → blocked? scene d = none := by
  induction hsorted with
  | nil => simp
  | @cons b cs hle hsorted ih =>
    rw [List.takeWhile_cons, List.forall_mem_cons]
    cases hb : blocked? scene b with
    | some e =>
      -- everything else comes after the change that is blocked
      rw [Option.isNone_some, if_neg Bool.false_ne_true]
      refine ⟨fun hc => (nomatch hc), fun ⟨hc, hclear, _⟩ => ?_⟩
      have hbefore : b.path ≤ c.path := by
        rcases List.mem_cons.1 hc with rfl | hc
        · exact String.le_refl _
        · exact hle c hc
      nomatch hclear hbefore
    | none =>
      have hfirst : c = b → ∀ d ∈ cs, d.path ≤ c.path → blocked? scene d = none := by
        rintro rfl d hd hdc
        rw [blocked?_congr (String.le_antisymm hdc (hle d hd)), hb]
      rw [Option.isNone_none, if_pos rfl, List.mem_cons, List.mem_cons, ih]
      constructor
      · rintro (rfl | ⟨hc, hclear⟩)
        · exact ⟨.inl rfl, fun _ => rfl, hfirst rfl⟩
        · exact ⟨.inr hc, fun _ => rfl, hclear⟩
      · rintro ⟨rfl | hc, -, hclear⟩
        · exact .inl rfl
        · exact .inr ⟨hc, hclear⟩

theorem sorted_inOrder (cs : List Change) : (inOrder cs).Pairwise fun a b => a.path ≤ b.path :=
  (List.pairwise_mergeSort (fun a b c => by simpa using String.le_trans)
    (fun a b => by simpa using String.le_total a.path b.path) cs).imp of_decide_eq_true

theorem mem_inOrder : c ∈ inOrder cs ↔ c ∈ cs := (List.mergeSort_perm _ _).mem_iff

/-- The changes of a batch that are taken in, in the order of their paths. -/
def front (scene : Scene) (cs : List Change) : List Change :=
  (inOrder cs).takeWhile fun c => (blocked? scene c).isNone

theorem mem_front : c ∈ front scene cs ↔ c ∈ taken scene cs := by
  rw [front, mem_takeWhile_iff (sorted_inOrder cs), mem_taken_iff]
  simp only [mem_inOrder]

theorem state_apply (scene : Scene) (catalog : Catalog) (schedule : Schedule) (cs : List Change) :
    (apply scene catalog schedule cs).2 =
      (front scene cs).foldl (State.absorb scene) ⟨catalog, schedule, [], []⟩ := by
  rw [apply, takeAll_eq, front]

/-- Changes in the order of their paths are taken in as they stand. -/
theorem apply_of_sorted (scene : Scene) (catalog : Catalog) (schedule : Schedule)
    (hsorted : cs.Pairwise fun a b => a.path ≤ b.path) :
    apply scene catalog schedule cs = State.takeAll scene ⟨catalog, schedule, [], []⟩ cs := by
  rw [apply, inOrder, List.mergeSort_of_pairwise (hsorted.imp decide_eq_true)]

/-! ## One change -/

/-- What a change can lead to. -/
theorem absorb_cases (scene : Scene) (s : State) (c : Change) :
    (∀ file, ¬Concerns scene c file) ∧ s.absorb scene c = s ∨
      ∃ file, Concerns scene c file ∧
        (s.absorb scene c = s.touch scene.clock c.kind file ∨
          scene.disk.bytes? (.ofString file) = none ∧ s.absorb scene c = s.drop file) := by
  rw [State.absorb]
  split
  · rename_i haccepted
    refine .inr ⟨_, ⟨haccepted, rfl⟩, ?_⟩
    simp only [FileTree.isFile?_eq]
    cases hbytes : scene.disk.bytes? (.ofString (Path.normalize scene.directory c.path)) with
    | some bytes => exact .inl rfl
    | none => exact .inr ⟨rfl, rfl⟩
  · rename_i hrejected
    exact .inl ⟨fun file h => hrejected h.1, rfl⟩

/-- What was found to be gone in a batch is as up to date as the disk. -/
def State.Consistent (scene : Scene) (s : State) : Prop :=
  ∀ file ∈ s.removed, s.catalog.get? file = onDisk scene.disk file

theorem drop_of_mem (h : file ∈ s.removed) : s.drop file = s := by
  rw [State.drop, if_pos (List.contains_iff_mem.2 h)]

/-- Up to its notes, the state after a file is dropped for the first time in a batch. -/
theorem drop_of_not_mem (h : file ∉ s.removed) : ∃ notes, s.drop file =
    ⟨s.catalog.removeFile file, s.schedule.cancel file, s.removed ++ [file], notes⟩ := by
  have hcontains : ¬s.removed.contains file = true := fun hc => h (List.contains_iff_mem.1 hc)
  rw [State.drop, if_neg hcontains]
  dsimp only
  split
  · exact ⟨_, rfl⟩
  · exact ⟨_, rfl⟩

/-- Dropping a file that is gone brings it up to date and no other. -/
theorem get?_drop (hs : s.Consistent scene) (hgone : scene.disk.bytes? (.ofString file) = none)
    (a : String) : (s.drop file).catalog.get? a =
      if a = file then onDisk scene.disk a else s.catalog.get? a := by
  by_cases hmem : file ∈ s.removed
  · rw [drop_of_mem hmem]
    split
    · rename_i heq
      exact heq ▸ hs file hmem
    · rfl
  · obtain ⟨notes, hdrop⟩ := drop_of_not_mem hmem
    rw [hdrop]
    refine (Catalog.get?_removeFile s.catalog file a).trans ?_
    split
    · rename_i heq
      rw [heq, Catalog.onDisk_eq_none hgone]
    · rfl

theorem mem_pending_drop (hne : a ≠ file) (h : a ∈ s.schedule.pending) :
    a ∈ (s.drop file).schedule.pending := by
  by_cases hmem : file ∈ s.removed
  · rwa [drop_of_mem hmem]
  · obtain ⟨notes, hdrop⟩ := drop_of_not_mem hmem
    rw [hdrop]
    exact Schedule.mem_pending_cancel.2 ⟨hne, h⟩

theorem mem_removed_of_drop (h : a ∈ (s.drop file).removed) : a = file ∨ a ∈ s.removed := by
  by_cases hmem : file ∈ s.removed
  · rw [drop_of_mem hmem] at h
    exact .inr h
  · obtain ⟨notes, hdrop⟩ := drop_of_not_mem hmem
    rw [hdrop] at h
    exact (List.mem_append.1 h).symm.imp_left List.mem_singleton.1

theorem consistent_absorb (hs : s.Consistent scene) : (s.absorb scene c).Consistent scene := by
  rcases absorb_cases scene s c with ⟨-, habsorb⟩ | ⟨file, -, habsorb | ⟨hgone, habsorb⟩⟩
  · rwa [habsorb]
  · rw [habsorb]
    exact hs
  · rw [habsorb]
    intro a ha
    rw [get?_drop hs hgone]
    split
    · rfl
    · rename_i hne
      exact hs a ((mem_removed_of_drop ha).resolve_left hne)

/-- A change unsettles no file, and settles the file that it is about. -/
theorem settled_absorb (hs : s.Consistent scene)
    (h : Settled scene.disk s.catalog s.schedule a ∨ Concerns scene c a) :
    Settled scene.disk (s.absorb scene c).catalog (s.absorb scene c).schedule a := by
  rcases absorb_cases scene s c with ⟨hrejected, habsorb⟩ | ⟨file, hfile, habsorb⟩
  · rw [habsorb]
    exact h.resolve_right (hrejected a)
  by_cases heq : a = file
  · rcases habsorb with habsorb | ⟨hgone, habsorb⟩
    · rw [habsorb]
      exact .inl (Schedule.mem_pending_add.2 (.inl heq))
    · rw [habsorb]
      exact .inr ((get?_drop hs hgone a).trans (if_pos heq))
  · -- the change is about another file
    have hsettled := h.resolve_right fun hc => heq (hc.2.symm.trans hfile.2)
    rcases habsorb with habsorb | ⟨hgone, habsorb⟩
    · rw [habsorb]
      exact hsettled.imp_left fun hpending => Schedule.mem_pending_add.2 (.inr hpending)
    · rw [habsorb]
      rcases hsettled with hpending | hget
      · exact .inl (mem_pending_drop heq hpending)
      · exact .inr (((get?_drop hs hgone a).trans (if_neg heq)).trans hget)

/-! ## A batch and a round -/

theorem settled_foldl (hs : s.Consistent scene)
    (h : Settled scene.disk s.catalog s.schedule a ∨ ∃ c ∈ cs, Concerns scene c a) :
    Settled scene.disk (cs.foldl (State.absorb scene) s).catalog
      (cs.foldl (State.absorb scene) s).schedule a := by
  induction cs generalizing s with
  | nil => exact h.resolve_right (by simp)
  | cons c cs ih =>
    refine ih (consistent_absorb hs) ?_
    rcases h with hsettled | ⟨d, hd, hconcerns⟩
    · exact .inl (settled_absorb hs (.inl hsettled))
    · rcases List.mem_cons.1 hd with rfl | hd
      · exact .inl (settled_absorb hs (.inr hconcerns))
      · exact .inr ⟨d, hd, hconcerns⟩

/-- The order in which the changes of a batch are taken in does not matter to what is settled. -/
theorem settled_apply
    (h : Settled scene.disk catalog schedule a ∨ ∃ c ∈ taken scene cs, Concerns scene c a) :
    Settled scene.disk (apply scene catalog schedule cs).2.catalog
      (apply scene catalog schedule cs).2.schedule a := by
  have hnone : (⟨catalog, schedule, [], []⟩ : State).Consistent scene := by
    intro file hfile
    nomatch hfile
  rw [state_apply]
  refine settled_foldl hnone (h.imp_right ?_)
  rintro ⟨c, hc, hconcerns⟩
  exact ⟨c, mem_front.2 hc, hconcerns⟩

/-- A round unsettles no file, and settles those that the changes taken in are about. -/
theorem settled_round
    (h : Settled scene.disk catalog schedule a ∨ ∃ c ∈ taken scene cs, Concerns scene c a) :
    Settled scene.disk (round scene catalog schedule cs now).catalog
      (round scene catalog schedule cs now).schedule a := by
  have happly := settled_apply h
  rw [round]
  split
  · rename_i s hs
    rwa [hs] at happly
  · rename_i s hs
    rw [hs, Settled] at happly
    rw [Settled]
    dsimp only
    rw [Catalog.get?_updateAll]
    by_cases hdue : a ∈ s.schedule.due now
    · exact .inr (if_pos hdue)
    · rw [if_neg hdue]
      exact happly.imp_left fun hpending => Schedule.mem_pending_dropDue hpending hdue

/-! ## What a round can bring -/

/-- A change takes files from the catalog at most. -/
theorem get?_of_absorb {f : Feature} (h : (s.absorb scene c).catalog.get? a = some f) :
    s.catalog.get? a = some f := by
  rcases absorb_cases scene s c with ⟨-, habsorb⟩ | ⟨file, -, habsorb | ⟨-, habsorb⟩⟩
  · rwa [habsorb] at h
  · rwa [habsorb] at h
  · rw [habsorb] at h
    by_cases hmem : file ∈ s.removed
    · rwa [drop_of_mem hmem] at h
    · obtain ⟨notes, hdrop⟩ := drop_of_not_mem hmem
      rw [hdrop] at h
      have hget := (Catalog.get?_removeFile s.catalog file a).symm.trans h
      split at hget
      · nomatch hget
      · exact hget

/-- A change makes no file pending but the one that it is about. -/
theorem mem_pending_of_absorb (h : a ∈ (s.absorb scene c).schedule.pending) :
    a ∈ s.schedule.pending ∨ Concerns scene c a := by
  rcases absorb_cases scene s c with ⟨-, habsorb⟩ | ⟨file, hfile, habsorb | ⟨-, habsorb⟩⟩
  · exact .inl (habsorb ▸ h)
  · rw [habsorb] at h
    rcases Schedule.mem_pending_add.1 h with rfl | h
    · exact .inr hfile
    · exact .inl h
  · rw [habsorb] at h
    by_cases hmem : file ∈ s.removed
    · rw [drop_of_mem hmem] at h
      exact .inl h
    · obtain ⟨notes, hdrop⟩ := drop_of_not_mem hmem
      rw [hdrop] at h
      exact .inl (Schedule.mem_pending_cancel.1 h).2

theorem get?_of_foldl {f : Feature}
    (h : (cs.foldl (State.absorb scene) s).catalog.get? a = some f) :
    s.catalog.get? a = some f := by
  induction cs generalizing s with
  | nil => exact h
  | cons c cs ih => exact get?_of_absorb (ih h)

theorem mem_pending_of_foldl (h : a ∈ (cs.foldl (State.absorb scene) s).schedule.pending) :
    a ∈ s.schedule.pending ∨ ∃ c ∈ cs, Concerns scene c a := by
  induction cs generalizing s with
  | nil => exact .inl h
  | cons c cs ih =>
    rcases ih h with h | ⟨d, hd, hconcerns⟩
    · exact (mem_pending_of_absorb h).imp_right fun hc => ⟨c, List.mem_cons_self, hc⟩
    · exact .inr ⟨d, List.mem_cons_of_mem c hd, hconcerns⟩

/-- A file that is pending after a batch was pending before or has a change in the batch. -/
theorem mem_pending_of_apply (h : a ∈ (apply scene catalog schedule cs).2.schedule.pending) :
    a ∈ schedule.pending ∨ ∃ c ∈ cs, Concerns scene c a := by
  rw [state_apply] at h
  refine (mem_pending_of_foldl h).imp_right ?_
  rintro ⟨c, hc, hconcerns⟩
  exact ⟨c, (mem_taken_iff.1 (mem_front.1 hc)).1, hconcerns⟩

/-- A feature that the catalog has after a round was there before, or it has just been read from a
file that was pending or has a change in the batch. -/
theorem get?_of_round {f : Feature}
    (h : (round scene catalog schedule cs now).catalog.get? a = some f) :
    catalog.get? a = some f ∨
      (a ∈ schedule.pending ∨ ∃ c ∈ cs, Concerns scene c a) ∧ onDisk scene.disk a = some f := by
  have hkept : (apply scene catalog schedule cs).2.catalog.get? a = some f →
      catalog.get? a = some f := by
    rw [state_apply]
    exact get?_of_foldl
  have hpending : a ∈ (apply scene catalog schedule cs).2.schedule.pending → _ :=
    mem_pending_of_apply
  rw [round] at h
  split at h
  · rename_i s hs
    rw [hs] at hkept
    exact .inl (hkept h)
  · rename_i s hs
    rw [hs] at hkept hpending
    dsimp only at h
    rw [Catalog.get?_updateAll] at h
    split at h
    · rename_i hdue
      exact .inr ⟨hpending (Schedule.mem_pending_of_due hdue), h⟩
    · exact .inl (hkept h)

/-- A round leaves features that were read from texts. -/
theorem fromTexts_round (hc : catalog.FromTexts) (scene : Scene) (schedule : Schedule)
    (cs : List Change) (now : Float) :
    (round scene catalog schedule cs now).catalog.FromTexts := by
  intro file f h
  rcases get?_of_round h with hget | ⟨-, hread⟩
  · exact hc file f hget
  · exact Catalog.exists_text_of_parsed? hread

theorem mem_pending_of_round (h : a ∈ (round scene catalog schedule cs now).schedule.pending) :
    a ∈ schedule.pending ∨ ∃ c ∈ cs, Concerns scene c a := by
  have hpending : a ∈ (apply scene catalog schedule cs).2.schedule.pending → _ :=
    mem_pending_of_apply
  rw [round] at h
  split at h
  · rename_i s hs
    rw [hs] at hpending
    exact hpending h
  · rename_i s hs
    rw [hs] at hpending
    exact hpending (Schedule.mem_pending_of_dropDue h)

end FeatureRun.Watch
