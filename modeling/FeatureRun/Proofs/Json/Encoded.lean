import FeatureRun.Json.Writer
import FeatureRun.Proofs.Text.Encoded

/-!
# Values without halves

Characters outside ASCII are written as they are, so the line of a value has a half of a surrogate
pair exactly if one of the strings in it has.

* `texts`: the strings of a value, and the names of its fields.
* `areWhole_escapeChar`: an escape neither adds nor hides a half.
* `isWhole_line`: a value on one line.
-/
set_option autoImplicit false

namespace FeatureRun.Json

open Text

mutual

/-- The strings in a value, the names of fields among them. -/
def texts : Json → List String
  | .null => []
  | .bool _ => []
  | .int _ => []
  | .real _ => []
  | .str s => [s]
  | .arr vs => textsOfItems vs
  | .obj fs => textsOfFields fs

def textsOfItems : List Json → List String
  | [] => []
  | v :: vs => v.texts ++ textsOfItems vs

def textsOfFields : List (String × Json) → List String
  | [] => []
  | (name, v) :: fs => name :: v.texts ++ textsOfFields fs

end

theorem areWhole_hexDigits (width n : Nat) : areWhole (hexDigits width n) = true := by
  induction width generalizing n with
  | zero => rfl
  | succ width ih =>
    have hdigit : ∀ m, m < 16 → isHalf (Nat.digitChar m) = false := by decide
    rw [hexDigits, areWhole_append, ih]
    simp [hdigit (n % 16) (Nat.mod_lt n (by decide))]

/-- A character is escaped only if it lies in ASCII. -/
theorem areWhole_escapeChar (c : Char) : areWhole (escapeChar c) = !isHalf c := by
  unfold escapeChar
  split
  · subst_vars; decide
  split
  · subst_vars; decide
  split
  · subst_vars; decide
  split
  · subst_vars; decide
  split
  · subst_vars; decide
  split
  · subst_vars; decide
  split
  · subst_vars; decide
  split
  · rw [areWhole_cons, areWhole_cons, areWhole_hexDigits, isHalf_of_lt (c := c) (by omega)]
    decide
  · simp

@[simp] theorem areWhole_stringText (s : String) : areWhole (stringText s) = isWhole s := by
  have hescape : ∀ cs : List Char, areWhole (cs.flatMap escapeChar) = areWhole cs := by
    intro cs
    induction cs with
    | nil => rfl
    | cons c cs ih =>
      rw [List.flatMap_cons, areWhole_append, areWhole_escapeChar, ih, areWhole_cons]
  have hmark : isHalf '"' = false := by decide
  simp [stringText, hescape, isWhole, hmark]

theorem areWhole_text (x : Real) : areWhole x.text = true := by
  cases x with
  | finite x =>
    have hsign : isWhole (if x.negative then "-" else "") = true := by
      cases x.negative <;> decide
    have hmark : isWhole "e" = true := by decide
    have hmantissa : isWhole (toString x.mantissa) = true := isWhole_toString x.mantissa
    change isWhole ((if x.negative then "-" else "") ++ toString x.mantissa ++ "e" ++
      toString x.exponent) = true
    rw [isWhole_append, isWhole_append, isWhole_append, hsign, hmantissa, hmark, isWhole_toString]
    rfl
  | infinite negative => cases negative <;> decide
  | nan => decide

/-! ## The line of a value -/

theorem areWhole_oneLine (d : Nat) : areWhole (Layout.oneLine.opening d) = true ∧
    areWhole (Layout.oneLine.between d) = true ∧ areWhole (Layout.oneLine.closing d) = true :=
  ⟨rfl, show areWhole [',', ' '] = true by decide, rfl⟩

theorem isHalf_marks : isHalf '[' = false ∧ isHalf ']' = false ∧ isHalf '{' = false ∧
    isHalf '}' = false ∧ isHalf ':' = false ∧ isHalf ' ' = false := by decide

mutual

theorem areWhole_render (d : Nat) : ∀ v : Json,
    areWhole (render .oneLine d v) = v.texts.all isWhole
  | .null => by rw [render, texts]; decide
  | .bool b => by rw [render, texts]; cases b <;> decide
  | .int n => by
    rw [render, texts]
    exact isWhole_toString n
  | .real x => by
    rw [render, texts]
    exact areWhole_text x
  | .str s => by simp [render, texts]
  | .arr [] => by rw [render, texts, textsOfItems]; decide
  | .arr (v :: vs) => by
    simp [render, texts, textsOfItems, areWhole_oneLine, isHalf_marks,
      areWhole_render (d + 1) v, areWhole_renderItems d vs]
  | .obj [] => by rw [render, texts, textsOfFields]; decide
  | .obj ((name, v) :: fs) => by
    simp [render, texts, textsOfFields, areWhole_oneLine, isHalf_marks,
      areWhole_render (d + 1) v, areWhole_renderFields d fs]

theorem areWhole_renderItems (d : Nat) : ∀ vs : List Json,
    areWhole (renderItems .oneLine d vs) = (textsOfItems vs).all isWhole
  | [] => by rw [renderItems, textsOfItems]; rfl
  | v :: vs => by
    simp [renderItems, textsOfItems, areWhole_oneLine, areWhole_render (d + 1) v,
      areWhole_renderItems d vs]

theorem areWhole_renderFields (d : Nat) : ∀ fs : List (String × Json),
    areWhole (renderFields .oneLine d fs) = (textsOfFields fs).all isWhole
  | [] => by rw [renderFields, textsOfFields]; rfl
  | (name, v) :: fs => by
    simp [renderFields, textsOfFields, areWhole_oneLine, isHalf_marks,
      areWhole_render (d + 1) v, areWhole_renderFields d fs]

end

/-- The line of a value has halves only from the strings in it. -/
theorem isWhole_line (v : Json) : isWhole v.line = v.texts.all isWhole := by
  rw [line, isWhole_ofList, areWhole_render]

theorem all_textsOfItems (p : String → Bool) (vs : List Json) :
    (textsOfItems vs).all p = vs.all fun v => v.texts.all p := by
  induction vs with
  | nil => rfl
  | cons v vs ih => rw [textsOfItems, List.all_append, ih, List.all_cons]

end FeatureRun.Json
