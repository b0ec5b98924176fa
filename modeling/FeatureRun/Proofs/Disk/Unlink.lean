import FeatureRun.Proofs.Disk

/-!
# Taking files away

What stands after something has been taken away stood there before, and nothing stands where it was.
So no path leads to a file that has been unlinked by that path, whatever its double dots lead
through.

* `extends_remove`, `at?_remove`: what stands after something has been taken away.
* `isFile?_unlink`: a file that is unlinked is gone.
-/
set_option autoImplicit false

namespace FeatureRun.FileTree

variable {t u : FileTree} {names : List String} {p : Path}

/-- Nothing stands where something has been taken away. -/
theorem at?_remove (hnames : names ≠ []) : (t.remove names).at? names = none := by
  induction names generalizing t with
  | nil => exact absurd rfl hnames
  | cons n ns ih =>
    cases t with
    | file content => rfl
    | dir es =>
      cases ns with
      | nil => rw [remove, at?, named?_filter, if_pos rfl]; rfl
      | cons m ns =>
        cases hn : named? n es with
        | none => simp [remove, hn, at?]
        | some u => simpa [remove, hn, at?, named?_setEntry] using ih (List.cons_ne_nil m ns)

/-- Taking something away brings nothing new. -/
theorem extends_remove (t : FileTree) (names : List String) : Extends (t.remove names) t := by
  induction names generalizing t with
  | nil => exact .refl t
  | cons n ns ih =>
    cases t with
    | file content => exact .refl _
    | dir es =>
      cases ns with
      | nil =>
        refine extends_dir fun m u hu => ⟨u, ?_, .refl u⟩
        rw [named?_filter] at hu
        split at hu
        · nomatch hu
        · exact hu
      | cons m ns =>
        cases hn : named? n es with
        | none =>
          simp only [remove, hn]
          exact .refl _
        | some v =>
          simp only [remove, hn]
          refine extends_dir fun k u hu => ?_
          by_cases hk : k = n
          · subst hk
            rw [named?_setEntry] at hu
            exact ⟨v, hn, Option.some.inj hu ▸ ih v⟩
          · rw [named?_setEntry_of_ne hk] at hu
            exact ⟨u, hu, .refl u⟩

theorem Extends.place (h : Extends t u) (hplace : t.place p = .ok names) :
    u.place p = .ok names := by
  unfold FileTree.place at hplace ⊢
  split at hplace
  · nomatch hplace
  · next hnul =>
    rw [if_neg hnul]
    exact h.follow hplace

/-- A path that leads anywhere starts at a directory. -/
theorem isDir_of_place (hp : p.parts ≠ []) (hplace : t.place p = .ok names) : t.isDir = true := by
  unfold place at hplace
  split at hplace
  · nomatch hplace
  · cases hparts : p.parts with
    | nil => exact absurd hparts hp
    | cons n ns =>
      rw [hparts] at hplace
      cases t with
      | dir es => rfl
      | file content => nomatch hplace

/-- A file is gone when it has been unlinked. -/
theorem isFile?_unlink (t : FileTree) (hp : p.parts ≠ []) : (t.unlink p).isFile? p = false := by
  cases hplace : t.place p with
  | error k => simp only [unlink, hplace, isFile?, node?]
  | ok names =>
    by_cases hdir : (t.at? names).any isDir = true
    · simp only [unlink, hplace, if_pos hdir, isFile?, node?]
      cases hat : t.at? names with
      | none => rfl
      | some u =>
        cases u with
        | dir es => rfl
        | file content =>
          rw [hat] at hdir
          exact absurd hdir Bool.false_ne_true
    · have hnames : names ≠ [] := by
        rintro rfl
        exact hdir (isDir_of_place hp hplace)
      simp only [unlink, hplace, if_neg hdir, isFile?, node?]
      -- whatever the path leads to now, it led to before
      cases hafter : (t.remove names).place p with
      | error k => rfl
      | ok names' =>
        obtain rfl : names' = names :=
          Except.ok.inj (((extends_remove t names).place hafter).symm.trans hplace)
        simp only [at?_remove hnames]

end FeatureRun.FileTree
