import FeatureRun.Proofs.Disk.Proper
import FeatureRun.Runner.Glue

/-!
# Which package is found

The search for step definitions looks at a directory before those in it, and at those by name. So it
finds the first of all directories with step definitions: the one whose names come first in the
lexicographic order, however the directories are nested and whichever of them hold no Java file.

* `HoldsJava`, `hasJava_iff`: directories with a Java file below them.
* `HasSteps`: directories with step definitions.
* `isFirstPath_of_stepsBelow?`, `not_hasSteps`: the search finds the first of them, if there is one.
* `glue_eq_append`: the packages that the runner is told of.
-/
set_option autoImplicit false

namespace FeatureRun

namespace FileTree

/-- A Java file stands somewhere below. -/
def HoldsJava (t : FileTree) : Prop :=
  ∃ ps name bytes, t.at? (ps ++ [name]) = some (.file bytes) ∧ ".java".toList <:+ name.toList

variable {es : List (String × FileTree)} {bytes : Bytes}

theorem not_holdsJava_file : ¬HoldsJava (.file bytes) := by
  rintro ⟨ps, name, content, hat, -⟩
  cases ps <;> nomatch hat

/-- A Java file below a directory is one of its files or stands below one of its entries. -/
theorem holdsJava_dir (h : (es.map Prod.fst).Nodup) : HoldsJava (.dir es) ↔
    ∃ e ∈ es, (e.2.isDir = false ∧ ".java".toList <:+ e.1.toList) ∨ e.2.HoldsJava := by
  constructor
  · rintro ⟨ps, name, bytes, hat, hname⟩
    cases ps with
    | nil =>
      rw [List.nil_append, at?, Option.bind_eq_some_iff] at hat
      obtain ⟨u, hu, hfile⟩ := hat
      obtain rfl := Option.some.inj hfile
      exact ⟨(name, _), mem_of_named? hu, .inl ⟨rfl, hname⟩⟩
    | cons n ps =>
      rw [List.cons_append, at?, Option.bind_eq_some_iff] at hat
      obtain ⟨u, hu, hfile⟩ := hat
      exact ⟨(n, u), mem_of_named? hu, .inr ⟨ps, name, bytes, hfile, hname⟩⟩
  · rintro ⟨⟨n, u⟩, hmem, hhere | ⟨ps, name, bytes, hat, hname⟩⟩
    · obtain ⟨hfile, hname⟩ := hhere
      cases u with
      | dir _ => cases hfile
      | file bytes =>
        refine ⟨[], n, bytes, ?_, hname⟩
        rw [List.nil_append, at?, (named?_eq_some_iff h).2 hmem]
        rfl
    · refine ⟨n :: ps, name, bytes, ?_, hname⟩
      rw [List.cons_append, at?, (named?_eq_some_iff h).2 hmem]
      exact hat

end FileTree

namespace Runner

open FileTree

variable {t u : FileTree} {es : List (String × FileTree)} {name n : String} {ns ms : List String}

theorem anyJava_eq (es : List (String × FileTree)) : anyJava es =
    es.any fun e => (!e.2.isDir && Text.endsWith e.1 ".java") || hasJava e.2 := by
  induction es with
  | nil => rfl
  | cons e es ih => rw [anyJava, List.any_cons, ih]

theorem hasJava_iff (h : t.Proper) : hasJava t = true ↔ t.HoldsJava := by
  induction h with
  | file bytes => simpa [hasJava] using not_holdsJava_file
  | @dir es names distinct entries ih =>
    rw [hasJava, anyJava_eq, List.any_eq_true, holdsJava_dir distinct]
    refine exists_congr fun e => and_congr_right fun he => ?_
    simp [ih e he, Text.endsWith]

/-! ## Directories with step definitions -/

/-- The name of a directory with step definitions. -/
def NamesSteps (name : String) : Prop :=
  "steps".toList <:+ name.toList ∨ "step".toList <:+ name.toList

/-- Below a directory called `name`, the names lead to a directory with step definitions: one with
such a name, below which there is a Java file. -/
structure HasSteps (name : String) (t : FileTree) (ns : List String) : Prop where
  named : NamesSteps (ns.getLastD name)
  java : ∃ u, t.at? ns = some u ∧ u.HoldsJava

theorem isStepsName_iff : isStepsName name = true ↔ NamesSteps name := by
  simp [isStepsName, NamesSteps, Text.endsWith]

theorem hasSteps_nil : HasSteps name t [] ↔ NamesSteps name ∧ t.HoldsJava :=
  ⟨fun ⟨hname, _, ht, hjava⟩ => ⟨hname, Option.some.inj ht ▸ hjava⟩,
    fun ⟨hname, hjava⟩ => ⟨hname, t, rfl, hjava⟩⟩

theorem hasSteps_cons :
    HasSteps name (.dir es) (n :: ns) ↔ ∃ u, named? n es = some u ∧ HasSteps n u ns := by
  constructor
  · rintro ⟨hname, v, hat, hjava⟩
    rw [at?, Option.bind_eq_some_iff] at hat
    obtain ⟨u, hu, hat⟩ := hat
    exact ⟨u, hu, by rwa [List.getLastD_cons] at hname, v, hat, hjava⟩
  · rintro ⟨u, hu, hname, v, hat, hjava⟩
    refine ⟨by rwa [List.getLastD_cons], v, ?_, hjava⟩
    rw [at?, hu]
    exact hat

theorem not_hasSteps_file {bytes : Bytes} : ¬HasSteps name (.file bytes) ns := by
  rintro ⟨-, u, hat, hjava⟩
  cases ns with
  | nil => exact not_holdsJava_file (Option.some.inj hat ▸ hjava)
  | cons n ns => nomatch hat

/-- The first of the directories with a property: a directory comes before those inside it, and
siblings come by their names. -/
structure IsFirstPath (has : List String → Prop) (ns : List String) : Prop where
  holds : has ns
  first : ∀ ms, has ms → ms = ns ∨ ns < ms

theorem IsFirstPath.unique {has : List String → Prop} (h : IsFirstPath has ns)
    (h' : IsFirstPath has ms) : ns = ms := by
  rcases h.first ms h'.holds with he | hlt
  · exact he.symm
  · rcases h'.first ns h.holds with he | hlt'
    · exact he
    · exact absurd hlt' (List.lt_asymm hlt)

/-! ## The search -/

theorem stepsInEach_eq (es : List (String × FileTree)) :
    stepsInEach es = es.map fun e => (e.1, stepsBelow? e.1 e.2) := by
  induction es with
  | nil => rfl
  | cons e es ih => rw [stepsInEach, ih, List.map_cons]

/-- What the search finds in the entries of a directory. -/
theorem mem_searches {found : Option (List String)} (h : (FileTree.dir es).Proper) :
    (n, found) ∈ byName (stepsInEach es) ↔
      ∃ u, named? n es = some u ∧ stepsBelow? n u = found := by
  simp [mem_byName, stepsInEach_eq, named?_eq_some_iff (proper_dir.1 h).2.1]

theorem isStepsName_and_anyJava_iff (h : (FileTree.dir es).Proper) :
    (isStepsName name && anyJava es) = true ↔ HasSteps name (.dir es) [] := by
  rw [Bool.and_eq_true, isStepsName_iff, hasSteps_nil, ← hasJava_iff h, hasJava]

/-- A directory is looked at before its entries. -/
theorem stepsBelow?_here (h : (FileTree.dir es).Proper) (hsteps : HasSteps name (.dir es) []) :
    stepsBelow? name (.dir es) = some [] := by
  rw [stepsBelow?, if_pos ((isStepsName_and_anyJava_iff h).2 hsteps)]

theorem stepsBelow?_entries (h : (FileTree.dir es).Proper) (hsteps : ¬HasSteps name (.dir es) []) :
    stepsBelow? name (.dir es) =
      (byName (stepsInEach es)).findSome? fun x => x.2.map (x.1 :: ·) := by
  rw [stepsBelow?, if_neg (mt (isStepsName_and_anyJava_iff h).1 hsteps)]

/-- Where the search finds nothing, there are no step definitions. -/
theorem not_hasSteps (h : t.Proper) (hnone : stepsBelow? name t = none) : ¬HasSteps name t ns := by
  induction ns generalizing t name with
  | nil =>
    cases t with
    | file bytes => exact not_hasSteps_file
    | dir es => exact fun hsteps => nomatch (stepsBelow?_here h hsteps).symm.trans hnone
  | cons n ns ih =>
    cases t with
    | file bytes => exact not_hasSteps_file
    | dir es =>
      intro hsteps
      obtain ⟨u, hu, hsteps⟩ := hasSteps_cons.1 hsteps
      have hhere : ¬HasSteps name (.dir es) [] := fun hsteps =>
        nomatch (stepsBelow?_here h hsteps).symm.trans hnone
      rw [stepsBelow?_entries h hhere, List.findSome?_eq_none_iff] at hnone
      have hbelow := hnone (n, stepsBelow? n u) ((mem_searches h).2 ⟨u, hu, rfl⟩)
      exact ih (h.named? hu) (Option.map_eq_none_iff.1 hbelow) hsteps

/-- The first entry in which the search finds something holds the first directory with step
definitions. -/
theorem isFirstPath_cons (h : (FileTree.dir es).Proper) (hhere : ¬HasSteps name (.dir es) [])
    {before after : List (String × Option (List String))} {found : Option (List String)}
    (hsearches : byName (stepsInEach es) = before ++ (n, found) :: after)
    (hbefore : ∀ x ∈ before, x.2 = none) (hu : named? n es = some u)
    (hfirst : IsFirstPath (HasSteps n u) ns) :
    IsFirstPath (HasSteps name (.dir es)) (n :: ns) := by
  refine ⟨hasSteps_cons.2 ⟨u, hu, hfirst.holds⟩, fun ms hms => ?_⟩
  cases ms with
  | nil => exact absurd hms hhere
  | cons m ms =>
    obtain ⟨v, hv, hms⟩ := hasSteps_cons.1 hms
    by_cases hmn : m = n
    · subst hmn
      obtain rfl := Option.some.inj (hu.symm.trans hv)
      rcases hfirst.first ms hms with rfl | hlt
      · exact .inl rfl
      · exact .inr (List.cons_lt_cons_iff.2 (.inr ⟨rfl, hlt⟩))
    · -- the other entries come later, since nothing is found in those that come before
      have hle : n ≤ m := by
        have hmem := (mem_searches h).2 ⟨v, hv, rfl⟩
        have hsorted := pairwise_byName (stepsInEach es)
        rw [hsearches] at hmem hsorted
        rcases List.mem_append.1 hmem with hmem | hmem
        · exact absurd hms (not_hasSteps (h.named? hv) (hbefore _ hmem))
        · rcases List.mem_cons.1 hmem with he | hmem
          · exact absurd (congrArg Prod.fst he) hmn
          · exact (List.pairwise_cons.1 (List.pairwise_append.1 hsorted).2.1).1 _ hmem
      exact .inr (List.cons_lt_cons_iff.2 (.inl (Std.lt_of_le_of_ne hle (Ne.symm hmn))))

/-- What the search finds is the first directory with step definitions. -/
theorem isFirstPath_of_stepsBelow? (h : t.Proper) (hsome : stepsBelow? name t = some ns) :
    IsFirstPath (HasSteps name t) ns := by
  induction ns generalizing t name with
  | nil =>
    cases t with
    | file bytes => nomatch hsome
    | dir es =>
      refine ⟨?_, fun ms _ => ?_⟩
      · by_contra hhere
        rw [stepsBelow?_entries h hhere] at hsome
        obtain ⟨x, -, hx⟩ := List.exists_of_findSome?_eq_some hsome
        simp at hx
      · cases ms with
        | nil => exact .inl rfl
        | cons m ms => exact .inr (List.nil_lt_cons m ms)
  | cons n ns ih =>
    cases t with
    | file bytes => nomatch hsome
    | dir es =>
      have hhere : ¬HasSteps name (.dir es) [] := fun hsteps =>
        nomatch (stepsBelow?_here h hsteps).symm.trans hsome
      rw [stepsBelow?_entries h hhere] at hsome
      obtain ⟨before, ⟨m, found⟩, after, hsearches, hx, hbefore⟩ :=
        List.findSome?_eq_some_iff.1 hsome
      obtain ⟨ks, rfl, he⟩ := Option.map_eq_some_iff.1 hx
      obtain ⟨rfl, rfl⟩ := List.cons.inj he
      have hmem : (m, some ks) ∈ byName (stepsInEach es) := by simp [hsearches]
      obtain ⟨u, hu, hfound⟩ := (mem_searches h).1 hmem
      exact isFirstPath_cons h hhere hsearches
        (fun x hx => Option.map_eq_none_iff.1 (hbefore x hx)) hu (ih (h.named? hu) hfound)

/-! ## The packages -/

/-- The names lead from the directory of test sources to one with step definitions. -/
def IsStepsDir (disk : FileTree) (root : Path) (ns : List String) : Prop :=
  ∃ t, disk.node? (testDir root) = some t ∧ HasSteps (testDir root).name t ns

variable {disk : FileTree} {root : Path} {configured : List String}

theorem name_testDir (root : Path) : (testDir root).name = "java" := by
  have hparts : (testDir root).parts = (root.parts ++ ["src", "test"]) ++ ["java"] := by
    rw [List.append_assoc]
    rfl
  rw [Path.name, hparts, List.getLast?_concat, Option.getD_some]

theorem stepsPackage?_cases (h : disk.Proper) (root : Path) :
    stepsPackage? disk root = none ∧ (∀ ns, ¬IsStepsDir disk root ns) ∨
    ∃ ns, stepsPackage? disk root = some (Text.join "." ns) ∧
      IsFirstPath (IsStepsDir disk root) ns := by
  cases hnode : disk.node? (testDir root) with
  | none =>
    refine .inl ⟨by rw [stepsPackage?, hnode]; rfl, ?_⟩
    rintro ns ⟨t, ht, -⟩
    nomatch hnode.symm.trans ht
  | some t =>
    have hsteps (ns : List String) : IsStepsDir disk root ns ↔ HasSteps "java" t ns := by
      rw [IsStepsDir, hnode, name_testDir]
      simp
    have ht : t.Proper := h.node? hnode
    cases hsearch : stepsBelow? "java" t with
    | none =>
      refine .inl ⟨by rw [stepsPackage?, hnode, Option.bind_some, hsearch]; rfl, fun ns => ?_⟩
      rw [hsteps]
      exact not_hasSteps ht hsearch
    | some ns =>
      refine .inr ⟨ns, by rw [stepsPackage?, hnode, Option.bind_some, hsearch]; rfl, ?_⟩
      rw [funext fun ns => propext (hsteps ns)]
      exact isFirstPath_of_stepsBelow? ht hsearch

theorem stepsPackage?_eq_some_iff (h : disk.Proper) {package : String} :
    stepsPackage? disk root = some package ↔
      ∃ ns, IsFirstPath (IsStepsDir disk root) ns ∧ package = Text.join "." ns := by
  rcases stepsPackage?_cases h root with ⟨hnone, hno⟩ | ⟨ns, hsome, hfirst⟩
  · rw [hnone]
    exact ⟨nofun, fun ⟨ns, hns, _⟩ => absurd hns.holds (hno ns)⟩
  · rw [hsome, Option.some.injEq]
    constructor
    · rintro rfl
      exact ⟨ns, hfirst, rfl⟩
    · rintro ⟨ms, hms, rfl⟩
      rw [hfirst.unique hms]

theorem glue_eq (disk : FileTree) (root : Path) (configured : List String) :
    glue disk root configured =
      configured ++ ((stepsPackage? disk root).filter (· ∉ configured)).toList := by
  rw [glue]
  cases stepsPackage? disk root with
  | none => simp
  | some package => by_cases hmem : package ∈ configured <;> simp [hmem, Option.filter]

/-- The runner is told of the configured packages in their order, and then of one more if there are
step definitions among the test sources whose package is not configured: that of the first directory
with step definitions. -/
theorem glue_eq_append (h : disk.Proper) (root : Path) (configured : List String) :
    ∃ found : Option String, glue disk root configured = configured ++ found.toList ∧
      (∀ package, found = some package ↔ package ∉ configured ∧
        ∃ ns, IsFirstPath (IsStepsDir disk root) ns ∧ package = Text.join "." ns) ∧
      ((∃ ns, IsStepsDir disk root ns) → ∃ ns, IsFirstPath (IsStepsDir disk root) ns) := by
  refine ⟨_, glue_eq disk root configured, fun package => ?_, ?_⟩
  · rw [Option.filter_eq_some_iff, stepsPackage?_eq_some_iff h, decide_eq_true_eq, and_comm]
  · rintro ⟨ns, hns⟩
    rcases stepsPackage?_cases h root with ⟨-, hno⟩ | ⟨first, -, hfirst⟩
    · exact absurd hns (hno ns)
    · exact ⟨first, hfirst⟩

/-- The first directory with such a name holds no Java file, the next one holds it further down, and
more of them follow. -/
theorem glue_eq_append_of_nested : ∃ (disk : FileTree) (root : Path), disk.Proper ∧
    glue disk root ["com.shared"] = ["com.shared", "com.real.step"] ∧
    ∃ ns, IsFirstPath (IsStepsDir disk root) ns ∧ "com.real.step" = Text.join "." ns := by
  let java : FileTree := .dir
    [("org", .dir [("steps", .dir [("C.java", .file [])])]),
      ("com", .dir
        [("zsteps", .dir [("A.java", .file [])]),
          ("asteps", .dir [("A.txt", .file [])]),
          ("real", .dir [("step", .dir [("deep", .dir [("B.java", .file [])])])])])]
  let disk : FileTree := .dir [("w", .dir [("src", .dir [("test", .dir [("java", java)])])])]
  let root : Path := ⟨.slash, ["w"]⟩
  have hdisk : disk.Proper := by
    simp [disk, java]
    decide
  have hsearch : stepsBelow? "java" java = some ["com", "real", "step"] := by
    simp +decide [stepsBelow?, stepsInEach, java, byName, List.mergeSort]
  have hnode : disk.node? (testDir root) = some java := rfl
  have hglue : glue disk root ["com.shared"] = ["com.shared", "com.real.step"] := by
    rw [glue, stepsPackage?, hnode, Option.bind_some, hsearch]
    rfl
  obtain ⟨found, happend, hfound, -⟩ := glue_eq_append hdisk root ["com.shared"]
  rw [hglue] at happend
  have hsome : found = some "com.real.step" := by
    cases found with
    | none => simp at happend
    | some package => simpa [eq_comm] using happend
  exact ⟨disk, root, hdisk, hglue, ((hfound _).1 hsome).2⟩

end Runner
end FeatureRun
