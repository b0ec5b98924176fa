import FeatureRun.Proofs.Watch.Filter
import FeatureRun.Proofs.Watch.Round

/-!
# A name that is too long

The watcher accepts a path by its spelling, and the name of a feature file may be longer than any
file system allows. The system does not say whether such a file is there.

* `overlongName`, `overlongPath`: such a name, and a path with it.
* `blocked?_overlong`: a change of this path is accepted and blocked.
* `takeAll_overlong`: nothing is taken in from it on.
-/
set_option autoImplicit false

namespace FeatureRun.Watch

open FeatureRun.Path (IsProper)
open FileTree (isTooLong)
open Text

/-- A name of a feature file with 264 bytes. -/
@[irreducible] def overlongName : String :=
  String.ofList (List.replicate 256 'b' ++ ".feature".toList)

/-- A path with this name in the directory "/w". -/
def overlongPath : String := (Path.child ⟨.slash, ["w"]⟩ overlongName).toString

/-! ## The name -/

theorem toList_overlongName :
    overlongName.toList = List.replicate 256 'b' ++ ".feature".toList := by
  unfold overlongName
  exact String.toList_ofList

theorem forall_mem_overlongName {p : Char → Bool}
    (h : ('b' :: ".feature".toList).all p = true) : ∀ c ∈ overlongName.toList, p c = true := by
  rw [List.all_cons, Bool.and_eq_true] at h
  rw [toList_overlongName, List.forall_mem_append]
  exact ⟨fun c hc => (List.eq_of_mem_replicate hc) ▸ h.1, List.all_eq_true.1 h.2⟩

theorem not_mem_overlongName {c : Char} (h : ('b' :: ".feature".toList).all (· != c) = true) :
    c ∉ overlongName.toList :=
  fun hc => bne_iff_ne.1 (forall_mem_overlongName h c hc) rfl

theorem proper_overlong : ∀ n ∈ ["w", overlongName], IsProper n := by
  have hne : ∀ s : String, s.toList.head? ≠ some 'b' → overlongName ≠ s := by
    rintro s hs rfl
    rw [toList_overlongName] at hs
    exact hs rfl
  simp only [List.forall_mem_cons]
  exact ⟨by decide, ⟨not_mem_overlongName (by decide), hne _ (by decide), hne _ (by decide),
    hne _ (by decide)⟩, nofun⟩

theorem isTooLong_overlongName : isTooLong overlongName = true := by
  have hb : (if isByteHalf 'b' = true then 1 else 'b'.utf8Size) = 1 := by decide
  have hsize : ∀ n m : Nat, (List.replicate n 'b').foldr
      (fun c n => (if isByteHalf c then 1 else c.utf8Size) + n) m = n + m := by
    intro n m
    induction n with
    | zero => exact (Nat.zero_add m).symm
    | succ n ih => rw [List.replicate_succ, List.foldr_cons, ih, hb]; omega
  rw [isTooLong, systemSize, toList_overlongName, List.foldr_append, hsize]
  exact decide_eq_true (Nat.lt_of_lt_of_le (by decide) (Nat.le_add_right _ _))

theorem isFeatureName_overlongName : Discovery.isFeatureName overlongName = true := by
  rw [Discovery.isFeatureName, endsWith, toList_overlongName]
  exact List.isSuffixOf_iff_suffix.2 (List.suffix_append _ _)

theorem isLeftover_overlongName : isLeftover overlongName = false := by
  rw [isLeftover, List.any_eq_false]
  intro w hw
  rw [startsWith, toList_overlongName]
  revert w
  decide

/-! ## The path -/

theorem toList_overlongPath : overlongPath.toList = "/w/".toList ++ overlongName.toList := by
  rw [overlongPath, Path.child, Path.toString_of_root (by decide), String.toList_append,
    Path.toList_join_slash]
  rfl

theorem isNormal_overlongPath : Path.IsNormal overlongPath := by
  rw [overlongPath, Path.child, Path.toString_of_root (by decide)]
  exact Path.isNormal_text (by decide) proper_overlong

theorem ofString_overlongPath : Path.ofString overlongPath = ⟨.slash, ["w", overlongName]⟩ :=
  Path.ofString_toString proper_overlong

theorem accepts_overlong (excluded : List String) :
    accepts ⟨.slash, ["w"]⟩ excluded overlongPath = true := by
  have hbelow : Path.below? ⟨.slash, ["w"]⟩ (.ofString overlongPath) =
      some ([] ++ [overlongName]) := by
    rw [ofString_overlongPath]
    exact Path.below?_eq_some_iff.2 rfl
  exact (accepts_iff isNormal_overlongPath hbelow).2
    ⟨nofun, isFeatureName_overlongName, isLeftover_overlongName⟩

/-- In order, the path stands between those of other files in its directory. -/
theorem overlongPath_between : "/w/a.feature" ≤ overlongPath ∧ overlongPath ≤ "/w/c.feature" := by
  have hpath : overlongPath.toList =
      '/' :: 'w' :: '/' :: 'b' :: (List.replicate 255 'b' ++ ".feature".toList) := by
    rw [toList_overlongPath, toList_overlongName]
    rfl
  have hafter : "/w/a.feature".toList < overlongPath.toList := by
    rw [hpath]
    exact .cons (.cons (.cons (.rel (by decide))))
  have hbefore : overlongPath.toList < "/w/c.feature".toList := by
    rw [hpath]
    exact .cons (.cons (.cons (.rel (by decide))))
  exact ⟨String.lt_asymm hafter, String.lt_asymm hbefore⟩

theorem hasNul_overlong : FileTree.hasNul ⟨.slash, ["w", overlongName]⟩ = false := by
  have hname : '\x00' ∉ overlongName.toList := not_mem_overlongName (by decide)
  simp [FileTree.hasNul, hname]

theorem place_overlong (es : List (String × FileTree)) :
    (FileTree.dir [("w", .dir es)]).place ⟨.slash, ["w", overlongName]⟩ = .error .nameTooLong := by
  have hdots : overlongName ≠ ".." := (proper_overlong _ (by simp)).noDots
  have hw : isTooLong "w" = false := by decide
  rw [FileTree.place, hasNul_overlong]
  simp [FileTree.follow, FileTree.at?, FileTree.named?, hdots, hw, isTooLong_overlongName]

theorem isFile?_overlong (es : List (String × FileTree)) :
    (FileTree.dir [("w", .dir es)]).isFile? (.ofString overlongPath) = false := by
  rw [ofString_overlongPath, FileTree.isFile?, FileTree.node?, place_overlong]

/-- The system is asked about the path, and refuses it. -/
theorem isRefused_overlong (es : List (String × FileTree)) :
    (FileTree.dir [("w", .dir es)]).isRefused ⟨.slash, ["w", overlongName]⟩ = true := by
  have hencoded : systemFault? overlongPath = none := by
    refine encodeFaultFrom_eq_none_iff.2 fun c hc hhalf => ?_
    have hwhole : ∀ c ∈ overlongPath.toList, (!isHalf c) = true := by
      rw [toList_overlongPath, List.forall_mem_append]
      exact ⟨List.all_eq_true.1 (by decide), forall_mem_overlongName (by decide)⟩
    have hc := hwhole c hc
    rw [hhalf] at hc
    nomatch hc
  have hshown : (Path.mk .slash ["w", overlongName]).toString = overlongPath := rfl
  rw [FileTree.isRefused, hasNul_overlong, hshown, hencoded, place_overlong]
  simp

theorem blocked?_overlong {scene : Scene} (kind : Change.Kind) {es : List (String × FileTree)}
    (hroot : scene.root = ⟨.slash, ["w"]⟩) (hdisk : scene.disk = .dir [("w", .dir es)]) :
    (blocked? scene ⟨kind, overlongPath⟩).isSome = true := by
  have hnormal : Path.normalize scene.directory overlongPath = overlongPath := by
    rw [Path.normalize_of_absolute _ isNormal_overlongPath.absolute, isNormal_overlongPath.normal]
  rw [blocked?, hroot, if_pos (accepts_overlong _), hnormal, ofString_overlongPath, hdisk,
    FileTree.checkFile, if_pos (isRefused_overlong es)]
  rfl

/-- Nothing is taken in from the path on. -/
theorem takeAll_overlong {scene : Scene} {es : List (String × FileTree)}
    (hroot : scene.root = ⟨.slash, ["w"]⟩) (hdisk : scene.disk = .dir [("w", .dir es)])
    (s : State) (kind : Change.Kind) (cs : List Change) :
    ∃ e, s.takeAll scene (⟨kind, overlongPath⟩ :: cs) = (.error e, s) := by
  obtain ⟨e, he⟩ := Option.isSome_iff_exists.1 (blocked?_overlong kind hroot hdisk)
  exact ⟨e, by rw [State.takeAll, take_eq, he]⟩

end FeatureRun.Watch
