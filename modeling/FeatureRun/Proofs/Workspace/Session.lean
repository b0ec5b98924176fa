import FeatureRun.Proofs.Workspace.Opening

/-!
# Opening a session or not

Whether a session can be opened is a matter of the settings file and of the place for the state of
the workspace; the feature files have no say in it, unless they lie too deep. In an opened session
every file of the catalog can be read, for nothing has happened to it since it was discovered.

* `Shut`, `openSession_error_iff`: why a session is not opened, and with which fault.
* `exists_text_of_openSession`: the text of a file of the catalog.
-/
set_option autoImplicit false

namespace FeatureRun.Workspace

variable {m : Machine} {w w' : Workspace} {e : Fault} {file : String} {f : Feature}

/-- The settings for the working directory of a machine. -/
def settingsOf (m : Machine) : Except Fault Settings :=
  settingsAt m.surroundings.load m.disk (start m).root

/-- Why no session is opened, and with which fault. -/
inductive Shut (m : Machine) : Fault → Prop where
  /-- The settings cannot be read, or are at fault. -/
  | settings {e : Fault} (h : settingsOf m = .error e) : Shut m e
  /-- There is no place for the state of the workspace. -/
  | place {s : Settings} {e : Fault} {disk : FileTree} (hsettings : settingsOf m = .ok s)
    (h : m.makeDirs (stateDir (start m).root) = (.error e, disk)) : Shut m e
  /-- There is no room for looking for the feature files. -/
  | depth {s : Settings} {disk : FileTree} (hsettings : settingsOf m = .ok s)
    (hplace : m.makeDirs (stateDir (start m).root) = (.ok (), disk))
    (h : m.surroundings.tooDeep .discover = true) : Shut m .tooDeep
  /-- The store cannot be made there. -/
  | store {s : Settings} {f : FileFault} {disk : FileTree} (hsettings : settingsOf m = .ok s)
    (hplace : m.makeDirs (stateDir (start m).root) = (.ok (), disk))
    (hroom : m.surroundings.tooDeep .discover = false)
    (hnew : disk.exists? (storeFile (start m).root) = false)
    (h : disk.write (storeFile (start m).root) [] = .error f) : Shut m (.file f)

/-- There is one reason at most. -/
theorem Shut.unique {e' : Fault} (h : Shut m e) (h' : Shut m e') : e = e' := by
  cases h with
  | settings h =>
    cases h' with
    | settings h' => exact Except.error.inj (h.symm.trans h')
    | place hsettings => nomatch h.symm.trans hsettings
    | depth hsettings => nomatch h.symm.trans hsettings
    | store hsettings => nomatch h.symm.trans hsettings
  | place hsettings h =>
    cases h' with
    | settings h' => nomatch hsettings.symm.trans h'
    | place _ h' =>
      cases h.symm.trans h'
      rfl
    | depth _ hplace => nomatch h.symm.trans hplace
    | store _ hplace => nomatch h.symm.trans hplace
  | depth hsettings hplace h =>
    cases h' with
    | settings h' => nomatch hsettings.symm.trans h'
    | place _ h' => nomatch hplace.symm.trans h'
    | depth => rfl
    | store _ _ hroom => nomatch h.symm.trans hroom
  | store hsettings hplace hroom _ h =>
    cases h' with
    | settings h' => nomatch hsettings.symm.trans h'
    | place _ h' => nomatch hplace.symm.trans h'
    | depth _ _ h' => nomatch hroom.symm.trans h'
    | store _ hplace' _ _ h' =>
      cases hplace.symm.trans hplace'
      exact congrArg Fault.file (Except.error.inj (h.symm.trans h'))

/-! ## The steps -/

theorem loadSettings_cases (w : Workspace) :
    (∃ e, settingsAt w.surroundings.load w.disk w.root = .error e ∧
      loadSettings w = (.error e, w)) ∨
    ∃ s journal, settingsAt w.surroundings.load w.disk w.root = .ok s ∧
      loadSettings w = (.ok (), { w with settings := s, journal := journal }) := by
  rw [loadSettings, Action.bind_ok Action.get_apply]
  cases hsettings : settingsAt w.surroundings.load w.disk w.root with
  | error e => exact .inl ⟨e, rfl, rfl⟩
  | ok s =>
    rw [Action.bind_ok (Action.ofExcept_ok id s)]
    exact .inr ⟨s, _, rfl, rfl⟩

theorem makeDirs_cases (p : Path) (hdisk : w.disk = m.disk)
    (hsurroundings : w.surroundings = m.surroundings) :
    (∃ e disk, m.makeDirs p = (.error e, disk) ∧
      makeDirs p w = (.error e, { w with disk := disk })) ∨
    ∃ disk, m.makeDirs p = (.ok (), disk) ∧ makeDirs p w = (.ok (), { w with disk := disk }) := by
  have hmade : w.toMachine.makeDirs p = m.makeDirs p := by
    rw [Machine.makeDirs, Machine.makeDirs, hdisk, hsurroundings]
  rw [makeDirs, hmade]
  rcases m.makeDirs p with ⟨e | ⟨⟩, disk⟩
  · exact .inl ⟨e, disk, rfl, rfl⟩
  · exact .inr ⟨disk, rfl, rfl⟩

/-- The store is opened where it is, or it is made empty. -/
theorem openStore_cases (w : Workspace) :
    (∃ f, w.disk.exists? (storeFile w.root) = false ∧
      w.disk.write (storeFile w.root) [] = .error f ∧ openStore w = (.error (.file f), w)) ∨
    (∀ f, w.disk.exists? (storeFile w.root) = false →
      w.disk.write (storeFile w.root) [] ≠ .error f) ∧
    ∃ w', openStore w = (.ok (), w') ∧ w.disk.Extends w'.disk ∧ w'.catalog = w.catalog := by
  rw [openStore, Action.bind_ok Action.get_apply]
  cases hnew : w.disk.exists? (storeFile w.root) with
  | true =>
    refine .inr ⟨fun f h => ?_, w, rfl, .refl _, rfl⟩
    cases h
  | false =>
    cases hwrite : w.disk.write (storeFile w.root) [] with
    | error f => exact .inl ⟨f, rfl, rfl, rfl⟩
    | ok disk =>
      refine .inr ⟨fun f _ h => ?_, _, rfl, FileTree.extends_of_write hnew hwrite, rfl⟩
      cases h

/-- How opening a session ends: for one of the reasons listed, or with a catalog of the feature
files that were on the disk. -/
theorem openSession_cases (m : Machine) :
    (∃ e w, Shut m e ∧ openSession (start m) = (.error e, w)) ∨
    ((∀ e, ¬Shut m e) ∧ ∃ disk files w, openSession (start m) = (.ok (), w) ∧
      w.catalog = Catalog.empty.updateAll disk files ∧ disk.Extends w.disk) := by
  rw [openSession]
  rcases loadSettings_cases (start m) with ⟨e, hsettings, hload⟩ | ⟨s, journal, hsettings, hload⟩
  · rw [Action.bind_error hload]
    exact .inl ⟨e, _, .settings hsettings, rfl⟩
  rw [Action.bind_ok hload, Action.bind_ok Action.get_apply]
  rcases makeDirs_cases (stateDir (start m).root)
    (m := m) (w := { start m with settings := s, journal := journal }) rfl rfl with
    ⟨e, disk, hplace, hmake⟩ | ⟨disk, hplace, hmake⟩
  · rw [Action.bind_error hmake]
    exact .inl ⟨_, _, .place hsettings hplace, rfl⟩
  rw [Action.bind_ok hmake]
  cases hroom : m.surroundings.tooDeep .discover with
  | true =>
    rw [Action.bind_error (Action.ensureRoom_of_tooDeep hroom)]
    exact .inl ⟨_, _, .depth hsettings hplace hroom, rfl⟩
  | false =>
  rw [Action.bind_ok (Action.ensureRoom_of_room hroom)]
  obtain ⟨total, w₁, hrefresh, hw₁⟩ := refresh_eq
    { start m with settings := s, journal := journal, disk := disk }
  rw [Action.bind_ok hrefresh]
  rcases openStore_cases w₁ with ⟨f, hnew, hwrite, hopen⟩ |
    ⟨hstore, w₂, hopen, hextends, hcatalog⟩
  · rw [Action.bind_error hopen]
    rw [hw₁] at hnew hwrite
    exact .inl ⟨_, _, .store hsettings hplace hroom hnew hwrite, rfl⟩
  · rw [Action.bind_ok hopen]
    rw [hw₁] at hstore hextends hcatalog
    refine .inr ⟨fun e h => ?_, disk, _, _, rfl, hcatalog, hextends⟩
    cases h with
    | settings h => cases hsettings.symm.trans h
    | place _ h => cases hplace.symm.trans h
    | depth _ _ h => cases hroom.symm.trans h
    | store _ hplace' _ hnew h =>
      cases hplace.symm.trans hplace'
      exact hstore _ hnew h

/-- A session is not opened exactly for the reasons listed. -/
theorem openSession_error_iff : (∃ w, openSession (start m) = (.error e, w)) ↔ Shut m e := by
  rcases openSession_cases m with ⟨e', w, hshut, hopen⟩ | ⟨hnot, _, _, w, hopen, -⟩
  · rw [hopen]
    constructor
    · rintro ⟨w', h⟩
      cases h
      exact hshut
    · intro h
      rw [hshut.unique h]
      exact ⟨w, rfl⟩
  · rw [hopen]
    exact ⟨fun ⟨_, h⟩ => (nomatch h), fun h => absurd h (hnot e)⟩

/-- In an opened session the files of the catalog can be read. -/
theorem exists_text_of_openSession (h : openSession (start m) = (.ok (), w))
    (hget : w.catalog.get? file = some f) :
    ∃ text, w.disk.readText (.ofString file) file = .ok text := by
  rcases openSession_cases m with
    ⟨e, w', -, hopen⟩ | ⟨-, disk, files, w', hopen, hcatalog, hextends⟩
  · cases hopen.symm.trans h
  cases hopen.symm.trans h
  rw [hcatalog, Catalog.get?_updateAll] at hget
  split at hget
  · obtain ⟨text, htext, -⟩ := Option.bind_eq_some_iff.1 hget
    rw [Catalog.textOf, FileTree.toOption_readText, Option.bind_eq_some_iff] at htext
    obtain ⟨bytes, hbytes, htext⟩ := htext
    have hread : (w.disk.readText (.ofString file) file).toOption = some text := by
      rw [FileTree.toOption_readText, hextends.bytes? hbytes]
      exact htext
    cases htext : w.disk.readText (.ofString file) file with
    | error e =>
      rw [htext] at hread
      cases hread
    | ok text => exact ⟨text, rfl⟩
  · cases hget

end FeatureRun.Workspace
