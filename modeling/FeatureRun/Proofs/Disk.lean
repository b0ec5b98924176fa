import FeatureRun.Disk.Walk
import FeatureRun.OrderedMap

/-!
# What stands at a path

A path without double dots leads to the place with its names, and walking a directory comes to every
file below it whose names are allowed.

* `bytes?`: the content of the regular file at a path.
* `exists_node?`: what a path leads to stands below each directory of the path.
* `Extends`, `extends_of_write`: a new file leaves everything else in its place.
* `mem_walk`, `of_mem_walk`: a walk comes to every file to keep, and to nothing else.
-/
set_option autoImplicit false

namespace FeatureRun.FileTree

variable {t u v : FileTree} {here names ps qs : List String} {p : Path} {bytes : Bytes}

/-- The content of the regular file at a path. -/
def bytes? (t : FileTree) (p : Path) : Option Bytes :=
  match t.node? p with
  | some (.file bytes) => some bytes
  | _ => none

theorem isFile?_eq (t : FileTree) (p : Path) : t.isFile? p = (t.bytes? p).isSome := by
  unfold isFile? bytes?
  cases t.node? p with
  | none => rfl
  | some u => cases u <;> rfl

/-- Reading gives the content of a regular file, and fails where there is none. -/
theorem toOption_readBytes (t : FileTree) (p : Path) (shown : String) :
    (t.readBytes p shown).toOption = t.bytes? p := by
  unfold readBytes bytes? node?
  cases t.place p with
  | error k => rfl
  | ok names =>
    cases hat : t.at? names with
    | none => simp [hat, Except.toOption]
    | some u => cases u <;> simp [hat, Except.toOption]

/-- The text of a file depends on nothing but its content. -/
theorem toOption_readText (t : FileTree) (p : Path) (shown : String) :
    (t.readText p shown).toOption = (t.bytes? p).bind fun bytes =>
      (Text.Utf8.decode bytes).toOption.map fun s => String.ofList (Text.unifyBreaks s.toList) := by
  rw [← toOption_readBytes t p shown, readText]
  cases t.readBytes p shown with
  | error f => rfl
  | ok bytes =>
    simp only [Except.toOption, Option.bind_some]
    cases Text.Utf8.decode bytes <;> rfl

/-! ## Entries -/

theorem named?_eq_find? (n : String) (es : List (String × FileTree)) :
    named? n es = OrderedMap.find? n es := by
  induction es with
  | nil => rfl
  | cons e es ih => rw [named?, OrderedMap.find?, ih]

theorem setEntry_eq_put (n : String) (u : FileTree) (es : List (String × FileTree)) :
    setEntry n u es = OrderedMap.put n u es := by
  induction es with
  | nil => rfl
  | cons e es ih => rw [setEntry, OrderedMap.put, ih]

theorem named?_setEntry (n : String) (u : FileTree) (es : List (String × FileTree)) :
    named? n (setEntry n u es) = some u := by
  rw [named?_eq_find?, setEntry_eq_put, OrderedMap.find?_put, if_pos rfl]

theorem named?_setEntry_of_ne {n m : String} (hne : m ≠ n) (u : FileTree)
    (es : List (String × FileTree)) : named? m (setEntry n u es) = named? m es := by
  rw [named?_eq_find?, setEntry_eq_put, OrderedMap.find?_put, if_neg hne, named?_eq_find?]

theorem named?_filter (n m : String) (es : List (String × FileTree)) :
    named? m (es.filter (·.1 ≠ n)) = if m = n then none else named? m es := by
  rw [named?_eq_find?, named?_eq_find?, OrderedMap.find?_filter_ne]

/-! ## Places -/

theorem at?_append (t : FileTree) (ps qs : List String) :
    t.at? (ps ++ qs) = (t.at? ps).bind fun u => u.at? qs := by
  induction ps generalizing t with
  | nil => rfl
  | cons n ps ih =>
    cases t with
    | file bytes => rfl
    | dir es =>
      cases hn : named? n es with
      | none => simp [at?, hn]
      | some u => simp [at?, hn, ih]

/-- Whoever comes to a place comes through the directories above it. -/
theorem follow_append (hps : ".." ∉ ps) (h : t.follow here (ps ++ qs) = .ok names) :
    t.follow here ps = .ok (here ++ ps) := by
  induction ps generalizing here with
  | nil => simp [follow]
  | cons p ps ih =>
    have hp : p ≠ ".." := fun he => hps (he ▸ List.mem_cons_self)
    have hrest : ".." ∉ ps := fun hmem => hps (List.mem_cons_of_mem _ hmem)
    rw [List.cons_append, follow] at h
    rw [follow]
    split at h
    · rw [if_neg hp] at h ⊢
      split at h
      · nomatch h
      · rename_i hshort
        rw [if_neg hshort]
        split at h
        · rename_i hnamed
          rw [if_pos hnamed]
          simpa using ih hrest h
        · nomatch h
    · nomatch h
    · nomatch h

/-- A path without double dots leads to the place with its names. -/
theorem follow_ok (hps : ".." ∉ ps) (h : t.follow here ps = .ok names) : names = here ++ ps := by
  have hnil : t.follow here (ps ++ []) = .ok names := by rwa [List.append_nil]
  have happend := follow_append hps hnil
  exact Except.ok.inj (h.symm.trans happend)

theorem hasNul_append_left {root : Path.Root} (h : hasNul ⟨root, ps ++ qs⟩ = false) :
    hasNul ⟨root, ps⟩ = false := by
  rw [hasNul, List.any_append, Bool.or_eq_false_iff] at h
  exact h.1

/-- What a path leads to stands below each directory of the path. -/
theorem exists_node? {root : Path.Root} (hps : ".." ∉ ps ++ qs)
    (h : t.node? ⟨root, ps ++ qs⟩ = some v) :
    ∃ u, t.node? ⟨root, ps⟩ = some u ∧ u.at? qs = some v := by
  have hleft : ".." ∉ ps := fun hmem => hps (List.mem_append_left qs hmem)
  unfold node? place at h
  split at h
  · rename_i names hplace
    split at hplace
    · nomatch hplace
    · rename_i hnul
      have hnames := follow_ok hps hplace
      rw [List.nil_append] at hnames
      rw [hnames, at?_append, Option.bind_eq_some_iff] at h
      obtain ⟨u, hu, hv⟩ := h
      have hfollow := follow_append hleft hplace
      rw [List.nil_append] at hfollow
      have hroot : hasNul ⟨root, ps⟩ = false := hasNul_append_left (by simpa using hnul)
      refine ⟨u, ?_, hv⟩
      simp only [node?, place, hroot, hfollow]
      exact hu
  · nomatch h

/-- No regular file stands where a path goes on. -/
theorem isFile?_of_node? {root : Path.Root} {n : String} (hps : ".." ∉ ps ++ n :: qs)
    (h : t.node? ⟨root, ps ++ n :: qs⟩ = some v) : t.isFile? ⟨root, ps⟩ = false := by
  obtain ⟨u, hu, hv⟩ := exists_node? hps h
  rw [isFile?, hu]
  cases u with
  | dir es => rfl
  | file bytes => nomatch hv

theorem isFile?_of_at? {root : Path.Root} {es : List (String × FileTree)} (hps : ".." ∉ ps)
    (h : t.at? ps = some (.dir es)) : t.isFile? ⟨root, ps⟩ = false := by
  unfold isFile? node? place
  cases hnul : hasNul ⟨root, ps⟩ with
  | true => rfl
  | false =>
    cases hfollow : t.follow [] ps with
    | error k => rfl
    | ok names =>
      have hnames := follow_ok hps hfollow
      rw [List.nil_append] at hnames
      simp [hnames, h]

/-- Putting something below a place changes what stands there to the same effect. -/
theorem at?_put (qs : List String) (v : FileTree) (h : t.at? ps = some u) :
    (t.put (ps ++ qs) v).at? ps = some (u.put qs v) := by
  induction ps generalizing t with
  | nil =>
    obtain rfl := Option.some.inj h
    rfl
  | cons n ps ih =>
    cases t with
    | file bytes => nomatch h
    | dir es =>
      rw [at?, Option.bind_eq_some_iff] at h
      obtain ⟨w, hw, hu⟩ := h
      rw [List.cons_append, put, hw, at?, named?_setEntry]
      exact ih hu

theorem of_above_ok {root : Path.Root} {n : String} (h : t.above ⟨root, ps ++ [n]⟩ = .ok names) :
    hasNul ⟨root, ps ++ [n]⟩ = false ∧ t.follow [] ps = .ok names ∧
      ∃ es, t.at? names = some (.dir es) := by
  rw [above] at h
  split at h
  · nomatch h
  rename_i hnul
  simp only [List.dropLast_concat] at h
  split at h
  · nomatch h
  rename_i hfollow
  split at h
  · rename_i es hdir
    obtain rfl := Except.ok.inj h
    exact ⟨Bool.not_eq_true _ ▸ hnul, hfollow, es, hdir⟩
  · nomatch h
  · nomatch h

/-- A file is written into a directory that is there, under a name of its own. -/
theorem of_write_ok {root : Path.Root} {n : String} {content : Bytes}
    (h : t.write ⟨root, ps ++ [n]⟩ content = .ok u) :
    ∃ names, t.above ⟨root, ps ++ [n]⟩ = .ok names ∧ n ≠ ".." ∧ isTooLong n = false ∧
      u = t.put (names ++ [n]) (.file content) := by
  rw [write] at h
  simp only [List.getLast?_concat] at h
  split at h
  · nomatch h
  · nomatch h
  rename_i names name habove hname
  obtain rfl := Option.some.inj hname
  split at h
  · nomatch h
  rename_i hdots
  split at h
  · nomatch h
  rename_i hshort
  split at h
  · nomatch h
  exact ⟨names, habove, hdots, Bool.not_eq_true _ ▸ hshort, (Except.ok.inj h).symm⟩

theorem exists_of_write_ok {root : Path.Root} {n : String} {content : Bytes} (hps : ".." ∉ ps)
    (h : t.write ⟨root, ps ++ [n]⟩ content = .ok u) :
    (∃ es, t.at? ps = some (.dir es)) ∧ u = t.put (ps ++ [n]) (.file content) := by
  obtain ⟨names, habove, -, -, hu⟩ := of_write_ok h
  obtain ⟨-, hfollow, hdir⟩ := of_above_ok habove
  have hnames := follow_ok hps hfollow
  rw [List.nil_append] at hnames
  exact hnames ▸ ⟨hdir, hu⟩

theorem node?_of_bytes? (h : t.bytes? p = some bytes) : t.node? p = some (.file bytes) := by
  unfold bytes? at h
  split at h
  · rename_i hnode
    rw [hnode, Option.some.inj h]
  · nomatch h

/-! ## Trees that grow -/

/-- Everything that stands in one tree stands in the other, files with the same content. -/
structure Extends (t u : FileTree) : Prop where
  file : ∀ ps bytes, t.at? ps = some (.file bytes) → u.at? ps = some (.file bytes)
  dir : ∀ ps es, t.at? ps = some (.dir es) → ∃ es', u.at? ps = some (.dir es')

namespace Extends

theorem refl (t : FileTree) : Extends t t := ⟨fun _ _ h => h, fun _ es h => ⟨es, h⟩⟩

theorem isSome (h : Extends t u) (hsome : (t.at? ps).isSome = true) : (u.at? ps).isSome = true := by
  obtain ⟨v, hv⟩ := Option.isSome_iff_exists.1 hsome
  cases v with
  | file bytes => rw [h.file ps bytes hv]; rfl
  | dir es =>
    obtain ⟨es', hdir⟩ := h.dir ps es hv
    rw [hdir]
    rfl

/-- A path leads to the same place. -/
theorem follow (h : Extends t u) (hfollow : t.follow here ps = .ok names) :
    u.follow here ps = .ok names := by
  induction ps generalizing here with
  | nil => exact hfollow
  | cons p ps ih =>
    rw [FileTree.follow] at hfollow ⊢
    split at hfollow
    · rename_i es hdir
      obtain ⟨es', hdir'⟩ := h.dir here es hdir
      rw [hdir']
      simp only
      split at hfollow
      · rename_i hp
        rw [if_pos hp]
        exact ih hfollow
      · rename_i hp
        rw [if_neg hp]
        split at hfollow
        · nomatch hfollow
        · rename_i hshort
          rw [if_neg hshort]
          split at hfollow
          · rename_i hnamed
            have hentry : (named? p es').isSome = true := by
              have hat : (u.at? (here ++ [p])).isSome = true := h.isSome (by
                rw [at?_append, hdir]
                simpa [at?] using hnamed)
              rw [at?_append, hdir'] at hat
              simpa [at?] using hat
            rw [if_pos hentry]
            exact ih hfollow
          · nomatch hfollow
    · nomatch hfollow
    · nomatch hfollow

/-- A file has the same content. -/
theorem bytes? (h : Extends t u) (hbytes : t.bytes? p = some bytes) : u.bytes? p = some bytes := by
  have hnode := node?_of_bytes? hbytes
  unfold node? place at hnode
  split at hnode
  · rename_i names hplace
    split at hplace
    · nomatch hplace
    · rename_i hnul
      have hfollow := h.follow hplace
      unfold FileTree.bytes? node? place
      rw [if_neg hnul, hfollow]
      simp only [h.file names bytes hnode]
  · nomatch hnode

end Extends

/-- Everything in a directory stands in another one, if each of its entries does. -/
theorem extends_dir {es es' : List (String × FileTree)}
    (h : ∀ n u, named? n es = some u → ∃ v, named? n es' = some v ∧ Extends u v) :
    Extends (.dir es) (.dir es') := by
  constructor
  · intro ps bytes hfile
    cases ps with
    | nil => nomatch hfile
    | cons n ps =>
      rw [at?, Option.bind_eq_some_iff] at hfile
      obtain ⟨u, hu, hfile⟩ := hfile
      obtain ⟨v, hv, hext⟩ := h n u hu
      rw [at?, hv]
      exact hext.file ps bytes hfile
  · intro ps es₁ hdir
    cases ps with
    | nil => exact ⟨es', rfl⟩
    | cons n ps =>
      rw [at?, Option.bind_eq_some_iff] at hdir
      obtain ⟨u, hu, hdir⟩ := hdir
      obtain ⟨v, hv, hext⟩ := h n u hu
      rw [at?, hv]
      exact hext.dir ps es₁ hdir

/-- What is put where nothing stands leaves everything in its place. -/
theorem extends_put (h : t.at? qs = none) (v : FileTree) : Extends t (t.put qs v) := by
  induction qs generalizing t with
  | nil => nomatch h
  | cons n qs ih =>
    cases t with
    | file content => exact .refl _
    | dir es =>
      refine extends_dir fun m u hu => ?_
      by_cases hm : m = n
      · subst hm
        rw [at?, hu] at h
        rw [hu]
        exact ⟨_, named?_setEntry m _ es, ih h⟩
      · exact ⟨u, by rwa [named?_setEntry_of_ne hm], .refl u⟩

/-- Where a path leads to a directory, it leads on to each of its entries. -/
theorem follow_concat {n : String} {es : List (String × FileTree)}
    (hps : t.follow here ps = .ok names) (hdir : t.at? names = some (.dir es)) (hn : n ≠ "..")
    (hshort : isTooLong n = false) (hentry : (named? n es).isSome = true) :
    t.follow here (ps ++ [n]) = .ok (names ++ [n]) := by
  induction ps generalizing here with
  | nil =>
    obtain rfl := Except.ok.inj hps
    simp [follow, hdir, hn, hshort, hentry]
  | cons p ps ih =>
    rw [List.cons_append, follow]
    rw [follow] at hps
    split at hps
    · split at hps
      · rename_i hp
        rw [if_pos hp]
        exact ih hps
      · rename_i hp
        rw [if_neg hp]
        split at hps
        · nomatch hps
        · rename_i hlong
          rw [if_neg hlong]
          split at hps
          · rename_i hnamed
            rw [if_pos hnamed]
            exact ih hps
          · nomatch hps
    · nomatch hps
    · nomatch hps

/-- A new file leaves everything else in its place. -/
theorem extends_of_write {root : Path.Root} {n : String} {content : Bytes}
    (hnew : t.exists? ⟨root, ps ++ [n]⟩ = false)
    (h : t.write ⟨root, ps ++ [n]⟩ content = .ok u) : Extends t u := by
  obtain ⟨names, habove, hn, hshort, rfl⟩ := of_write_ok h
  obtain ⟨hnul, hfollow, es, hdir⟩ := of_above_ok habove
  refine extends_put ?_ _
  rw [at?_append, hdir]
  cases hentry : named? n es with
  | none => simp [at?, hentry]
  | some v =>
    -- the path would have led to what is there already
    have hpath := follow_concat hfollow hdir hn hshort (by rw [hentry]; rfl)
    rw [exists?, node?, place, hnul, hpath] at hnew
    simp [at?_append, hdir, at?, hentry] at hnew

/-! ## Walks -/

section Walk

variable {enter keep : String → Bool} {es : List (String × FileTree)} {n : String}

theorem mem_of_named? (h : named? n es = some u) : (n, u) ∈ es := by
  induction es with
  | nil => nomatch h
  | cons e es ih =>
    obtain ⟨m, v⟩ := e
    rw [named?] at h
    split at h
    · rename_i hm
      obtain rfl := Option.some.inj h
      exact hm ▸ List.mem_cons_self
    · exact List.mem_cons_of_mem _ (ih h)

theorem mem_byName {α : Type} {xs : List (String × α)} {x : String × α} :
    x ∈ byName xs ↔ x ∈ xs := (List.mergeSort_perm _ _).mem_iff

theorem pairwise_byName {α : Type} (xs : List (String × α)) :
    (byName xs).Pairwise fun x y => x.1 ≤ y.1 := by
  have hsorted : (byName xs).Pairwise fun x y => decide (x.1 ≤ y.1) = true :=
    List.pairwise_mergeSort (fun x y z => by simpa using String.le_trans)
      (fun x y => by simpa using String.le_total x.1 y.1) xs
  exact hsorted.imp of_decide_eq_true

/-- The files of a directory to keep. -/
theorem files_eq (keep : String → Bool) (es : List (String × FileTree)) :
    files keep es = (es.filter fun e => !e.2.isDir && keep e.1).map fun e => (e.1, ()) := by
  induction es with
  | nil => rfl
  | cons e es ih =>
    obtain ⟨m, v⟩ := e
    rw [files, List.filter_cons, ih]
    split <;> rfl

/-- The directories to enter, and what is found below them. -/
theorem subtrees_eq (enter keep : String → Bool) (es : List (String × FileTree)) :
    subtrees enter keep es =
      (es.filter fun e => e.2.isDir && enter e.1).map fun e => (e.1, walk enter keep e.2) := by
  induction es with
  | nil => rfl
  | cons e es ih =>
    obtain ⟨m, v⟩ := e
    rw [subtrees, List.filter_cons, ih]
    split <;> rfl

theorem mem_files (h : (n, .file bytes) ∈ es) (hn : keep n = true) : (n, ()) ∈ files keep es := by
  rw [files_eq]
  exact List.mem_map.2 ⟨_, List.mem_filter.2 ⟨h, by simp [isDir, hn]⟩, rfl⟩

theorem mem_subtrees (keep : String → Bool) (h : (n, u) ∈ es) (hdir : u.isDir = true)
    (hn : enter n = true) :
    (n, walk enter keep u) ∈ subtrees enter keep es := by
  rw [subtrees_eq]
  exact List.mem_map.2 ⟨_, List.mem_filter.2 ⟨h, by simp [hdir, hn]⟩, rfl⟩

/-- A walk comes to every file to keep, if the directories on the way are entered. -/
theorem mem_walk (h : t.at? (ps ++ [n]) = some (.file bytes)) (hps : ∀ p ∈ ps, enter p = true)
    (hn : keep n = true) : ps ++ [n] ∈ t.walk enter keep := by
  induction ps generalizing t with
  | nil =>
    cases t with
    | file content => nomatch h
    | dir es =>
      have hnamed : named? n es = some (.file bytes) := by simpa [at?] using h
      rw [walk]
      refine List.mem_append_left _ (List.mem_map.2 ⟨(n, ()), mem_byName.2 ?_, rfl⟩)
      exact mem_files (mem_of_named? hnamed) hn
  | cons p ps ih =>
    obtain ⟨hp, hrest⟩ := List.forall_mem_cons.1 hps
    cases t with
    | file content => nomatch h
    | dir es =>
      rw [List.cons_append, at?, Option.bind_eq_some_iff] at h
      obtain ⟨u, hnamed, hfile⟩ := h
      have hdir : u.isDir = true := by
        cases u with
        | dir es => rfl
        | file content => cases ps <;> nomatch hfile
      have hsub := mem_subtrees keep (mem_of_named? hnamed) hdir hp
      rw [walk]
      refine List.mem_append_right _ (List.mem_flatMap.2 ⟨_, mem_byName.2 hsub, ?_⟩)
      exact List.mem_map.2 ⟨ps ++ [n], ih hfile hrest, rfl⟩

theorem of_mem_files (h : (n, ()) ∈ files keep es) : keep n = true ∧ ∃ u, (n, u) ∈ es := by
  rw [files_eq] at h
  obtain ⟨⟨m, u⟩, hmem, he⟩ := List.mem_map.1 h
  cases he
  obtain ⟨hmem, hkeep⟩ := List.mem_filter.1 hmem
  exact ⟨(Bool.and_eq_true _ _ ▸ hkeep).2, u, hmem⟩

theorem of_mem_subtrees {paths : List (List String)} (h : (n, paths) ∈ subtrees enter keep es) :
    enter n = true ∧ ∃ u, (n, u) ∈ es ∧ paths = walk enter keep u := by
  rw [subtrees_eq] at h
  obtain ⟨⟨m, u⟩, hmem, he⟩ := List.mem_map.1 h
  cases he
  obtain ⟨hmem, henter⟩ := List.mem_filter.1 hmem
  exact ⟨(Bool.and_eq_true _ _ ▸ henter).2, u, hmem, rfl⟩

/-- It comes to nothing else. -/
theorem of_mem_walk (h : names ∈ t.walk enter keep) :
    ∃ ps n, names = ps ++ [n] ∧ (∀ p ∈ ps, enter p = true) ∧ keep n = true := by
  induction names generalizing t with
  | nil =>
    cases t with
    | file content => nomatch h
    | dir es => simp [walk] at h
  | cons m rest ih =>
    cases t with
    | file content => nomatch h
    | dir es =>
      rw [walk] at h
      rcases List.mem_append.1 h with h | h
      · obtain ⟨⟨n, _⟩, hn, he⟩ := List.mem_map.1 h
        exact ⟨[], n, he.symm, List.forall_mem_nil _, (of_mem_files (mem_byName.1 hn)).1⟩
      · obtain ⟨⟨n, paths⟩, hpaths, h⟩ := List.mem_flatMap.1 h
        obtain ⟨names, hnames, he⟩ := List.mem_map.1 h
        obtain ⟨rfl, rfl⟩ := List.cons.inj he
        obtain ⟨henter, u, -, rfl⟩ := of_mem_subtrees (mem_byName.1 hpaths)
        obtain ⟨ps, m, rfl, hps, hkeep⟩ := ih hnames
        exact ⟨n :: ps, m, rfl, List.forall_mem_cons.2 ⟨henter, hps⟩, hkeep⟩

end Walk

end FeatureRun.FileTree
