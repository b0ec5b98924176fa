import FeatureRun.Proofs.Decimal.NonNegative
import FeatureRun.Proofs.Except
import FeatureRun.Proofs.OrderedMap
import FeatureRun.Settings
import FeatureRun.Workspace.Fault

/-!
# Settings are valid or rejected

Reading settings accepts them or rejects them as faulty, and what is accepted is valid. Two things
slip through. A float that is no number is not below zero and so is accepted. A whole number that no
double can hold is neither accepted nor rejected as faulty, and neither is a text that its loader
refuses for a reason of its own.

* `ValidOrFaulty`: how reading is meant to end.
* `Ends`: all ways in which reading ends.
* `read_ends`: reading ends in one of these ways, for every text and whatever a loader makes of it,
  and as it is meant to if nothing slips through; entries under other keys change nothing.
-/
set_option autoImplicit false

namespace FeatureRun.Settings

variable {α : Type} {l : Loaded α} {s s' : Settings} {key : String} {e : ConfigError}

/-- The mapping that has been loaded gives a key a value. -/
def Gives (l : Loaded α) (key : String) (v : Yaml.Value (Yaml.Value α)) : Prop :=
  ∃ es, l = .ok (.mapping es) ∧ (key, v) ∈ entriesOf es

/-- A length of time under a key: at least zero, unless it has been given as no number. -/
def IsTime (l : Loaded α) (key : String) (x : Float) : Prop :=
  0 ≤ x ∨ x.isNaN = true ∧ Gives l key (.float x)

/-- What single entries cannot break. -/
structure Sound (l : Loaded α) (s : Settings) : Prop where
  attempts : 1 ≤ s.reportAttempts
  delay : IsTime l "report_delay" s.reportDelay
  debounce : IsTime l "debounce" s.debounce
  timeout : IsTime l "timeout" s.timeout
  factory : s.objectFactory ≠ some ""

/-- What holds of settings that are accepted. -/
structure Accepted (l : Loaded α) (s : Settings) : Prop extends Sound l s where
  runner : s.runnerCommand ≠ []
  level : (Level.ofWord? s.logLevel).isSome = true

def timeKeys : List String := ["report_delay", "debounce", "timeout"]

/-- What settings are meant to be. -/
structure Valid (s : Settings) : Prop where
  attempts : 1 ≤ s.reportAttempts
  delay : 0 ≤ s.reportDelay
  debounce : 0 ≤ s.debounce
  timeout : 0 ≤ s.timeout
  factory : s.objectFactory ≠ some ""
  runner : s.runnerCommand ≠ []
  level : (Level.ofWord? s.logLevel).isSome = true

instance : DecidablePred Valid := fun s =>
  decidable_of_iff
    (1 ≤ s.reportAttempts ∧ 0 ≤ s.reportDelay ∧ 0 ≤ s.debounce ∧ 0 ≤ s.timeout ∧
      s.objectFactory ≠ some "" ∧ s.runnerCommand ≠ [] ∧ (Level.ofWord? s.logLevel).isSome = true)
    ⟨fun ⟨h₁, h₂, h₃, h₄, h₅, h₆, h₇⟩ => ⟨h₁, h₂, h₃, h₄, h₅, h₆, h₇⟩,
      fun ⟨h₁, h₂, h₃, h₄, h₅, h₆, h₇⟩ => ⟨h₁, h₂, h₃, h₄, h₅, h₆, h₇⟩⟩

/-- How reading is meant to end: with valid settings, or with their faults. -/
def ValidOrFaulty : Checked Settings → Prop
  | .ok s => Valid s
  | .error e => Fault.kindOfSettings e = .settings

instance : DecidablePred ValidOrFaulty
  | .ok s => inferInstanceAs (Decidable (Valid s))
  | .error e => inferInstanceAs (Decidable (Fault.kindOfSettings e = .settings))

/-- How reading ends. -/
inductive Ends (l : Loaded α) : Checked Settings → Prop where
  | accepted {s : Settings} (h : Accepted l s) : Ends l (.ok s)
  /-- The settings are rejected as faulty. -/
  | rejected {e : ConfigError} (h : Fault.kindOfSettings e = .settings) : Ends l (.error e)
  /-- The loader gave up for another reason than a breach of the rules. -/
  | refused {r : Yaml.Refusal} (h : l = .error (.refusal r)) : Ends l (.error (.refused r))
  /-- A length of time has been given as a whole number that no double can hold. -/
  | tooLarge {key : String} {n : Int} (hkey : key ∈ timeKeys) (hgives : Gives l key (.int n))
      (hn : Decimal.floatOfInt? n = none) : Ends l (.error .tooLarge)

/-! ## Single settings -/

theorem one_le_of_positiveInt {v : Yaml.Value α} {n : Int} (h : positiveInt key v = .ok n) :
    1 ≤ n := by
  unfold positiveInt at h
  split at h
  · split at h
    · nomatch h
    · cases h
      omega
  · nomatch h

theorem ne_of_optionalString {v : Yaml.Value α} {x : Option String}
    (h : optionalString key v = .ok x) : x ≠ some "" := by
  unfold optionalString at h
  split at h
  · cases h
    nofun
  · cases h
    split
    · nofun
    · next hs => exact fun h => hs (Option.some.inj h)
  · nomatch h

/-- A length of time is checked by whether it is below zero. -/
theorem zero_le_or_of_nonNegative {v : Yaml.Value α} {x : Float} (h : nonNegative key v = .ok x) :
    0 ≤ x ∨ x.isNaN = true ∧ v = .float x := by
  unfold nonNegative at h
  split at h
  · split at h
    · nomatch h
    · split at h
      · next hn y hy =>
        cases h
        exact .inl (Decimal.zero_le_of_floatOfInt? (by omega) hy)
      · nomatch h
  · split at h
    · nomatch h
    · next hx =>
      cases h
      exact (Decimal.zero_le_or_isNaN_of_not_lt hx).imp_right fun hnan => ⟨hnan, rfl⟩
  · nomatch h

theorem IsTime.of_nonNegative {v : Yaml.Value (Yaml.Value α)} {x : Float}
    (h : nonNegative key v = .ok x) (hgives : Gives l key v) : IsTime l key x :=
  (zero_le_or_of_nonNegative h).imp_right fun ⟨hnan, hv⟩ => ⟨hnan, hv ▸ hgives⟩

theorem error_of_strings {v : Yaml.Value (Yaml.Value α)} (h : strings key v = .error e) :
    e = .wrongKind key .strings := by
  unfold strings at h
  split at h
  · nomatch h
  · nomatch h
  · split at h
    · nomatch h
    · cases h; rfl
  · cases h; rfl

theorem error_of_positiveInt {v : Yaml.Value α} (h : positiveInt key v = .error e) :
    e = .wrongKind key .positiveInt := by
  unfold positiveInt at h
  split at h
  · split at h <;> cases h
    rfl
  · cases h; rfl

theorem error_of_nonNegative {v : Yaml.Value α} (h : nonNegative key v = .error e) :
    e = .wrongKind key .nonNegative ∨
      e = .tooLarge ∧ ∃ n, v = .int n ∧ Decimal.floatOfInt? n = none := by
  unfold nonNegative at h
  split at h
  · split at h
    · cases h; exact .inl rfl
    · split at h
      · nomatch h
      · next hn => cases h; exact .inr ⟨rfl, _, rfl, hn⟩
  · split at h <;> cases h
    exact .inl rfl
  · cases h; exact .inl rfl

theorem error_of_string {v : Yaml.Value α} (h : string key v = .error e) :
    e = .wrongKind key .string := by
  unfold string at h
  split at h <;> cases h
  rfl

theorem error_of_optionalString {v : Yaml.Value α} (h : optionalString key v = .error e) :
    e = .wrongKind key .string := by
  unfold optionalString at h
  split at h <;> cases h
  rfl

/-! ## Entries -/

theorem sound_default : Sound l default where
  attempts := by decide
  delay := .inl (Decimal.zero_le_ofScientific ..)
  debounce := .inl (Decimal.zero_le_ofScientific ..)
  timeout := .inl (Decimal.zero_le_ofScientific ..)
  factory := nofun

theorem Sound.set {v : Yaml.Value (Yaml.Value α)} (h : Sound l s) (hgives : Gives l key v)
    (hset : s.set key v = .ok s') : Sound l s' := by
  unfold Settings.set at hset
  split at hset
  case h_5 =>
    obtain ⟨n, hn, rfl⟩ := exists_of_map_ok hset
    exact { h with attempts := one_le_of_positiveInt hn }
  case h_6 =>
    obtain ⟨x, hx, rfl⟩ := exists_of_map_ok hset
    exact { h with delay := .of_nonNegative hx hgives }
  case h_7 =>
    obtain ⟨x, hx, rfl⟩ := exists_of_map_ok hset
    exact { h with debounce := .of_nonNegative hx hgives }
  case h_8 =>
    obtain ⟨x, hx, rfl⟩ := exists_of_map_ok hset
    exact { h with timeout := .of_nonNegative hx hgives }
  case h_9 =>
    obtain ⟨x, hx, rfl⟩ := exists_of_map_ok hset
    exact { h with factory := ne_of_optionalString hx }
  case h_12 => exact Except.ok.inj hset ▸ h
  all_goals
    obtain ⟨x, -, rfl⟩ := exists_of_map_ok hset
    exact { h with }

/-- An entry that cannot be set is faulty, or holds a whole number that no double can hold. -/
theorem error_of_set {v : Yaml.Value (Yaml.Value α)} (h : s.set key v = .error e) :
    Fault.kindOfSettings e = .settings ∨
      e = .tooLarge ∧ key ∈ timeKeys ∧ ∃ n, v = .int n ∧ Decimal.floatOfInt? n = none := by
  unfold Settings.set at h
  split at h
  case h_6 | h_7 | h_8 =>
    rcases error_of_nonNegative (error_of_map_error h) with rfl | ⟨rfl, hv⟩
    · exact .inl rfl
    · exact .inr ⟨rfl, by decide, hv⟩
  case h_12 => nomatch h
  all_goals
    refine .inl ?_
    have h := error_of_map_error h
  case h_5 => exact error_of_positiveInt h ▸ rfl
  case h_9 => exact error_of_optionalString h ▸ rfl
  case h_10 | h_11 => exact error_of_string h ▸ rfl
  all_goals exact error_of_strings h ▸ rfl

variable {es : List (String × Yaml.Value (Yaml.Value α))}

theorem Sound.setAll (h : Sound l s) (hgives : ∀ p ∈ es, Gives l p.1 p.2)
    (hset : s.setAll es = .ok s') : Sound l s' := by
  induction es generalizing s with
  | nil => exact Except.ok.inj hset ▸ h
  | cons p es ih =>
    obtain ⟨hp, hes⟩ := List.forall_mem_cons.1 hgives
    unfold Settings.setAll at hset
    split at hset
    · nomatch hset
    · next hs => exact ih (h.set hp hs) hes hset

/-- If entries cannot be set, one of them cannot. -/
theorem exists_of_setAll_error (h : s.setAll es = .error e) :
    ∃ p ∈ es, ∃ s' : Settings, s'.set p.1 p.2 = .error e := by
  induction es generalizing s with
  | nil => nomatch h
  | cons p es ih =>
    unfold Settings.setAll at h
    split at h
    · next hs => exact ⟨p, List.mem_cons_self, s, Except.error.inj h ▸ hs⟩
    · obtain ⟨q, hq, hs⟩ := ih h
      exact ⟨q, List.mem_cons_of_mem p hq, hs⟩

/-! ## Entries under other keys -/

def knownKeys : List String :=
  ["glue_paths", "exclude_dirs", "runner_command", "classpath", "report_attempts", "report_delay",
    "debounce", "timeout", "object_factory", "log_level", "report_dir"]

/-- The entry is under the key of a setting. -/
def isKnown (p : Yaml.Value α × Yaml.Value α) : Bool :=
  (stringItem? p.1).any (· ∈ knownKeys)

theorem set_of_not_mem {v : Yaml.Value (Yaml.Value α)} (h : key ∉ knownKeys) :
    s.set key v = .ok s := by
  unfold Settings.set
  split
  case h_12 => rfl
  all_goals exact absurd (by decide) h

theorem setAll_filter (s : Settings) (es : List (String × Yaml.Value (Yaml.Value α))) :
    s.setAll (es.filter fun p => p.1 ∈ knownKeys) = s.setAll es := by
  induction es generalizing s with
  | nil => rfl
  | cons p es ih =>
    obtain ⟨k, v⟩ := p
    by_cases h : k ∈ knownKeys
    · simp only [List.filter_cons, h, decide_true, if_true, Settings.setAll, ih]
    · simp only [List.filter_cons, h, decide_false, Bool.false_eq_true, if_false, Settings.setAll,
        set_of_not_mem h, ih]

theorem entriesOf_filter (es : List (Yaml.Value α × Yaml.Value α)) :
    entriesOf (es.filter isKnown) = (entriesOf es).filter fun p => p.1 ∈ knownKeys := by
  refine Eq.trans ?_ (congrArg OrderedMap.entries (OrderedMap.filter_ofList (· ∈ knownKeys) _)).symm
  unfold entriesOf
  rw [List.filter_filterMap, List.filterMap_filter]
  refine congrArg (fun ps => (OrderedMap.ofList ps).entries) (List.filterMap_congr fun p _ => ?_)
  cases hp : stringItem? p.1 <;> simp [isKnown, hp, Option.filter]

theorem ofValue_filter (es : List (Yaml.Value (Yaml.Value α) × Yaml.Value (Yaml.Value α))) :
    ofValue (.mapping (es.filter isKnown)) = ofValue (.mapping es) := by
  simp only [ofValue, entriesOf_filter, setAll_filter]

/-! ## Reading -/

theorem ends_check (h : Sound l s) : Ends l s.check := by
  unfold check
  split
  · exact .rejected rfl
  split
  · exact .rejected rfl
  · next hlevel hrunner =>
    exact .accepted { h with
      runner := by simpa using hrunner
      level := by simpa [Option.isSome_iff_ne_none] using hlevel }

theorem ends_ofValue (v : Yaml.Value (Yaml.Value (Yaml.Value α))) : Ends (.ok v) (ofValue v) := by
  unfold ofValue
  split
  · exact .accepted { sound_default with runner := nofun, level := by decide }
  · next es =>
    have hgives : ∀ p ∈ entriesOf es, Gives (.ok (.mapping es)) p.1 p.2 := fun p hp => ⟨es, rfl, hp⟩
    split
    · next e he =>
      obtain ⟨p, hp, s, hs⟩ := exists_of_setAll_error he
      rcases error_of_set hs with h | ⟨rfl, hkey, n, hv, hn⟩
      · exact .rejected h
      · exact .tooLarge hkey (hv ▸ hgives p hp) hn
    · next s hs => exact ends_check (sound_default.setAll hgives hs)
  · exact .rejected rfl

theorem ends_ofLoaded : (l : Loaded α) → Ends l (ofLoaded l)
  | .error (.fault _) => .rejected rfl
  | .error (.refusal _) => .refused rfl
  | .ok v => ends_ofValue v

/-- The value is not one of the two that slip through: a float that is no number, and a whole number
that no double can hold. -/
def IsClear : Yaml.Value (Yaml.Value α) → Prop
  | .float x => x.isNaN = false
  | .int n => Decimal.floatOfInt? n ≠ none
  | _ => True

/-- Nothing slips through: the loader gives up for breaches of the rules only, and no length of time
is one of the values that do. -/
structure Sane (l : Loaded α) : Prop where
  loaded : ∀ r, l ≠ .error (.refusal r)
  clear : ∀ key ∈ timeKeys, ∀ v, Gives l key v → IsClear v

theorem Sane.zero_le {x : Float} (h : Sane l) (hkey : key ∈ timeKeys) (hx : IsTime l key x) :
    0 ≤ x := by
  rcases hx with hx | ⟨hnan, hgives⟩
  · exact hx
  · exact absurd hnan (Bool.eq_false_iff.1 (h.clear key hkey _ hgives))

theorem Sane.validOrFaulty {r : Checked Settings} (h : Sane l) (hends : Ends l r) :
    ValidOrFaulty r := by
  cases hends with
  | accepted hs =>
    exact { hs with
      delay := h.zero_le (by decide) hs.delay
      debounce := h.zero_le (by decide) hs.debounce
      timeout := h.zero_le (by decide) hs.timeout }
  | rejected he => exact he
  | refused hl => exact absurd hl (h.loaded _)
  | tooLarge hkey hgives hn => exact absurd hn (h.clear _ hkey _ hgives)

/-- Reading accepts settings that are valid or rejects them as faulty, unless a length of time is no
number or too large for a double, or the loader gives up for a reason of its own. This is so for
every text, whatever the loader makes of it. Entries under other keys change nothing. -/
theorem read_ends (loader : String → Loaded α) (text : String) :
    read text = readBy load text ∧
      Ends (loader text) (readBy loader text) ∧
      (Sane (loader text) → ValidOrFaulty (readBy loader text)) ∧
      ∀ es, loader text = .ok (.mapping es) →
        ofValue (.mapping (es.filter isKnown)) = readBy loader text := by
  have hends : Ends (loader text) (readBy loader text) := ends_ofLoaded (loader text)
  refine ⟨rfl, hends, fun h => h.validOrFaulty hends, fun es hes => ?_⟩
  rw [readBy, hes, ofValue_filter]
  rfl

/-- A time limit of three seconds beside an entry that is not of the settings. -/
theorem read_ends_of_time_limit :
    let l : Loaded Empty := .ok (.mapping [(.str "timeout", .int 3), (.str "colour", .null)])
    Sane l ∧ ValidOrFaulty (ofLoaded l) ∧
      ofValue (.mapping [(.str "timeout", .int 3)] : Yaml.Value (Yaml.Value (Yaml.Value Empty))) =
        ofLoaded l := by
  intro l
  have hsane : Sane l := by
    refine ⟨nofun, fun key hkey v hv => ?_⟩
    obtain ⟨es, hes, hv⟩ := hv
    obtain rfl := Yaml.Value.mapping.inj (Except.ok.inj hes)
    rcases List.mem_cons.1 hv with hv | hv
    · cases hv
      exact (by decide +kernel : Decimal.floatOfInt? 3 ≠ none)
    · cases List.mem_singleton.1 hv
      exact trivial
  obtain ⟨-, -, hvalid, hknown⟩ := read_ends (fun _ => l) ""
  exact ⟨hsane, hvalid hsane, hknown _ rfl⟩

/-- A time limit that is no number is accepted, and neither one that no double can hold nor a whole
number without digits is rejected as faulty. -/
theorem not_validOrFaulty :
    ¬ValidOrFaulty (read "timeout: .nan") ∧
      ¬ValidOrFaulty
        (ofLoaded (.ok (.mapping [(.str "timeout", .int (2 ^ 1024))]) : Loaded Empty)) ∧
      ¬ValidOrFaulty (read "timeout: !!int ''") := by
  decide +kernel

end FeatureRun.Settings
