import FeatureRun.Workspace.Basic

/-!
# Actions step by step

What the building blocks of an action do to a workspace, and what they leave as it is. A view of a
workspace picks out what is to stay; an action that keeps a view does so also when it fails.

* `bind_ok`, `bind_error`, `exists_of_bind_ok`: an action fails where its first step does.
* `Keeps`: an action leaves a view of the workspace as it is.
* `Maintains`: an action leaves a property of the workspace as it is.
* `Establishes`: an action gives the workspace a property.
* `Throws`: an action fails with no other faults.
-/
set_option autoImplicit false

namespace FeatureRun.Action

variable {ε α β : Type} {act : Action α} {next : α → Action β} {w w' : Workspace}

theorem bind_ok {a : α} (h : act w = (.ok a, w')) : (act >>= next) w = next a w' := by
  simp only [bind, ExceptT.bind, ExceptT.mk, StateT.bind, h]
  rfl

/-- An action succeeds only if each of its steps does. -/
theorem exists_of_bind_ok {b : β} (h : (act >>= next) w = (.ok b, w')) :
    ∃ a w₁, act w = (.ok a, w₁) ∧ next a w₁ = (.ok b, w') := by
  cases hact : act w with
  | mk r w₁ =>
    cases r with
    | ok a => exact ⟨a, w₁, rfl, (bind_ok hact).symm.trans h⟩
    | error e =>
      simp only [bind, ExceptT.bind, ExceptT.mk, StateT.bind, hact] at h
      nomatch h

theorem run_apply (act : Action α) (w : Workspace) : act.run.run w = act w := rfl

theorem get_apply : (get : Action Workspace) w = (.ok w, w) := rfl

theorem set_apply : (set w' : Action Unit) w = (.ok (), w') := rfl

theorem ofExcept_ok (fault : ε → Fault) (a : α) :
    ofExcept fault (.ok a : Except ε α) w = (.ok a, w) := rfl

theorem ofExcept_error (fault : ε → Fault) (e : ε) :
    ofExcept fault (.error e : Except ε α) w = (.error (fault e), w) := rfl

theorem of_ofExcept_ok {fault : ε → Fault} {r : Except ε α} {a : α}
    (h : ofExcept fault r w = (.ok a, w')) : r = .ok a ∧ w' = w := by
  cases r with
  | error e => nomatch h
  | ok b =>
    cases h
    exact ⟨rfl, rfl⟩

theorem note_apply (ns : List Note) :
    note ns w = (.ok (), { w with journal := w.journal.add ns }) := rfl

theorem bind_error {e : Fault} (h : act w = (.error e, w')) :
    (act >>= next) w = (.error e, w') := by
  simp only [bind, ExceptT.bind, ExceptT.mk, StateT.bind, h]
  rfl

theorem display_apply (change : StatusBar → StatusBar) :
    display change w = (.ok (), { w with status := change w.status }) := rfl

/-! ## Conditions -/

theorem ensureRoom_of_room {work : Work} (h : w.surroundings.tooDeep work = false) :
    ensureRoom work w = (.ok (), w) := by
  rw [ensureRoom, bind_ok get_apply, h]
  rfl

theorem ensureRoom_of_tooDeep {work : Work} (h : w.surroundings.tooDeep work = true) :
    ensureRoom work w = (.error .tooDeep, w) := by
  rw [ensureRoom, bind_ok get_apply, h]
  rfl

theorem ensureEncoded_of_none {texts : List String}
    (h : texts.findSome? Text.encodeFault? = none) : ensureEncoded texts w = (.ok (), w) := by
  rw [ensureEncoded, h]
  rfl

theorem ensureEncoded_of_some {texts : List String} {f : Text.EncodeFault}
    (h : texts.findSome? Text.encodeFault? = some f) :
    ensureEncoded texts w = (.error (.unencodable f), w) := by
  rw [ensureEncoded, h]
  rfl

/-! ## What stays -/

/-- The action leaves the view of every workspace as it is, also when it fails. -/
def Keeps (view : Workspace → β) (act : Action α) : Prop := ∀ w, view (act w).2 = view w

section Keeps

variable {γ : Type} {view : Workspace → γ}

theorem Keeps.apply (h : Keeps view act) {r : Except Fault α} (hact : act w = (r, w')) :
    view w' = view w := by
  rw [← h w, hact]

theorem Keeps.bind (h : Keeps view act) (hnext : ∀ a, Keeps view (next a)) :
    Keeps view (act >>= next) := by
  intro w
  cases hact : act w with
  | mk r w₁ =>
    cases r with
    | ok a => rw [bind_ok hact, hnext a w₁, h.apply hact]
    | error e => rw [bind_error hact, h.apply hact]

/-- Only what follows depends on the workspace that was looked at. -/
theorem Keeps.get_bind {next : Workspace → Action β} (h : ∀ w, view (next w w).2 = view w) :
    Keeps view ((get : Action Workspace) >>= next) := fun w => h w

theorem keeps_pure (a : α) : Keeps view (pure a : Action α) := fun _ => rfl

theorem keeps_throw (e : Fault) : Keeps view (throw e : Action α) := fun _ => rfl

theorem keeps_ofExcept (fault : ε → Fault) (r : Except ε α) : Keeps view (ofExcept fault r) := by
  cases r with
  | ok a => exact keeps_pure a
  | error e => exact keeps_throw (fault e)

theorem keeps_mapM {act : ε → Action α} {xs : List ε} (h : ∀ x, Keeps view (act x)) :
    Keeps view (xs.mapM act) := by
  induction xs with
  | nil => exact keeps_pure []
  | cons x xs ih =>
    rw [List.mapM_cons]
    exact (h x).bind fun a => ih.bind fun as => keeps_pure (a :: as)

theorem keeps_ensureRoom (work : Work) : Keeps view (ensureRoom work) := by
  intro w
  cases h : w.surroundings.tooDeep work with
  | true => rw [ensureRoom_of_tooDeep h]
  | false => rw [ensureRoom_of_room h]

theorem keeps_ensureEncoded (texts : List String) : Keeps view (ensureEncoded texts) := by
  intro w
  cases h : texts.findSome? Text.encodeFault? with
  | some f => rw [ensureEncoded_of_some h]
  | none => rw [ensureEncoded_of_none h]

/-- A view that is part of one that an action keeps. -/
theorem Keeps.part {δ : Type} (h : Keeps view act) (part : γ → δ) :
    Keeps (fun w => part (view w)) act := fun w => congrArg part (h w)

theorem Keeps.endingWith {last : Workspace → Workspace} (h : Keeps view act)
    (hlast : ∀ w, view (last w) = view w) : Keeps view (endingWith act last) :=
  fun w => (hlast _).trans (h w)

end Keeps

/-- If a workspace has the property, it has it after the action, also when that fails. -/
def Maintains (P : Workspace → Prop) (act : Action α) : Prop := ∀ w, P w → P (act w).2

section Maintains

variable {γ : Type} {view : Workspace → γ} {P : Workspace → Prop}

/-- What depends on a view only is maintained by every action that keeps it. -/
theorem Keeps.maintains (h : Keeps view act) (Q : γ → Prop) : Maintains (fun w => Q (view w)) act :=
  fun w hw => (congrArg Q (h w)).mpr hw

theorem Maintains.bind (h : Maintains P act) (hnext : ∀ a, Maintains P (next a)) :
    Maintains P (act >>= next) := by
  intro w hw
  have hact := h w hw
  rcases hres : act w with ⟨e | a, w₁⟩
  · rw [bind_error hres]
    rwa [hres] at hact
  · rw [bind_ok hres]
    rw [hres] at hact
    exact hnext a w₁ hact

/-- What follows may use that the workspace that was looked at has the property. -/
theorem Maintains.get_bind {next : Workspace → Action β} (h : ∀ w, P w → P (next w w).2) :
    Maintains P ((get : Action Workspace) >>= next) := fun w hw => h w hw

theorem Maintains.endingWith {last : Workspace → Workspace} (h : Maintains P act)
    (hlast : ∀ w, P w → P (last w)) : Maintains P (endingWith act last) :=
  fun w hw => hlast _ (h w hw)

end Maintains

/-- The workspace has the property after the action, also when that fails. -/
def Establishes (P : Workspace → Prop) (act : Action α) : Prop := ∀ w, P (act w).2

theorem Establishes.bind {P : Workspace → Prop} (h : Establishes P act)
    (hnext : ∀ a, Maintains P (next a)) : Establishes P (act >>= next) := by
  intro w
  have hact := h w
  rcases hres : act w with ⟨e | a, w₁⟩
  · rw [bind_error hres]
    rwa [hres] at hact
  · rw [bind_ok hres]
    rw [hres] at hact
    exact hnext a w₁ hact

theorem establishes_endingWith {P : Workspace → Prop} {last : Workspace → Workspace}
    (h : ∀ w, P (last w)) : Establishes P (endingWith act last) :=
  fun w => h (act w).2

/-! ## What fails -/

/-- Every fault of the action is of this sort. -/
def Throws (P : Fault → Prop) (act : Action α) : Prop := ∀ w e w', act w = (.error e, w') → P e

section Throws

variable {P : Fault → Prop}

/-- An action fails as its first step does, or as what follows does. -/
theorem bind_error_iff {e : Fault} : (act >>= next) w = (.error e, w') ↔
    act w = (.error e, w') ∨ ∃ a w₁, act w = (.ok a, w₁) ∧ next a w₁ = (.error e, w') := by
  constructor
  · intro h
    rcases hact : act w with ⟨e' | a, w₁⟩
    · rw [bind_error hact] at h
      obtain ⟨he, rfl⟩ := Prod.mk.inj h
      exact .inl (by rw [Except.error.inj he])
    · rw [bind_ok hact] at h
      exact .inr ⟨a, w₁, rfl, h⟩
  · rintro (hact | ⟨a, w₁, hact, hrest⟩)
    · exact bind_error hact
    · exact (bind_ok hact).trans hrest

theorem Throws.bind (h : Throws P act) (hnext : ∀ a, Throws P (next a)) :
    Throws P (act >>= next) := by
  intro w e w' hbind
  rcases bind_error_iff.1 hbind with hact | ⟨a, w₁, -, hrest⟩
  · exact h w e w' hact
  · exact hnext a w₁ e w' hrest

theorem Throws.get_bind {next : Workspace → Action β} (h : ∀ w, Throws P (next w)) :
    Throws P ((get : Action Workspace) >>= next) := fun w => h w w

theorem throws_pure (a : α) : Throws P (pure a : Action α) := by
  intro w e w' h
  have hpure : (Except.ok a, w) = (Except.error e, w') := h
  nomatch hpure

theorem throws_ofExcept {fault : ε → Fault} (h : ∀ e, P (fault e)) (r : Except ε α) :
    Throws P (ofExcept fault r) := by
  intro w e w' hr
  cases r with
  | ok a => nomatch hr
  | error f =>
    cases hr
    exact h f

end Throws

end FeatureRun.Action
