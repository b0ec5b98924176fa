import FeatureRun.Decimal.Scientific
import Mathlib

/-!
# Doubles that are not negative

A double that is zero, finite or infinite with a positive sign is at least zero. Rounding, products
and quotients of such numbers keep the sign, and so does storing them in 64 bits. Hence the double
nearest to a number without a sign is at least zero, however large the number is. A double that is
not below zero need not be at least zero: it may be no number at all.
-/
set_option autoImplicit false

namespace FeatureRun.Decimal

open Float.Model (UnpackedFloat Format)
open Float.Model.UnpackedFloat (Sign Accuracy roundWithAccuracy packComponents
  unpackMantissa_packComponents unpackExponent_packComponents unpackSign_packComponents)

/-- Zero, a finite number or infinity, with a positive sign. -/
def IsPlus : UnpackedFloat → Prop
  | .notANumber => False
  | .infinity s | .zero s | .finite s _ _ _ => s = .positive

/-- A finite number with a positive sign that is not zero. -/
def IsSize : UnpackedFloat → Prop
  | .finite s _ _ _ => s = .positive
  | _ => False

instance : DecidablePred IsSize
  | .finite .positive _ _ _ => .isTrue rfl
  | .finite .negative _ _ _ | .notANumber | .infinity _ | .zero _ => .isFalse nofun

variable {a b : UnpackedFloat}

/-! ## Operations -/

theorem isPlus_roundWithAccuracy (spec : Format) (m : Nat) (e : Int) (acc : Accuracy) :
    IsPlus (roundWithAccuracy spec .positive m e acc) := by
  unfold roundWithAccuracy
  dsimp only
  split <;> rfl

theorem isPlus_normalize (spec : Format) {m : Int} (hm : 0 ≤ m) (e : Int) :
    IsPlus (UnpackedFloat.normalize spec m e .positive) := by
  unfold UnpackedFloat.normalize
  split
  · next h => exact absurd (Int.compare_eq_lt.1 h) (by omega)
  · rfl
  · exact isPlus_roundWithAccuracy ..

theorem isPlus_mul (spec : Format) (ha : IsPlus a) (hb : IsSize b) :
    IsPlus (UnpackedFloat.mul spec a b) := by
  cases b with
  | finite s m e hm =>
    cases hb
    cases a with
    | notANumber => exact ha
    | infinity | zero => cases ha; rfl
    | finite => cases ha; exact isPlus_roundWithAccuracy ..
  | _ => exact hb.elim

theorem isPlus_div (spec : Format) (ha : IsPlus a) (hb : IsSize b) :
    IsPlus (UnpackedFloat.div spec a b) := by
  cases b with
  | finite s m e hm =>
    cases hb
    cases a with
    | notANumber => exact ha
    | infinity | zero => cases ha; rfl
    | finite => cases ha; exact isPlus_roundWithAccuracy ..
  | _ => exact hb.elim

theorem isPlus_ofScientific (spec : Format) (m : Nat) (e : Int) :
    IsPlus (UnpackedFloat.ofScientific spec m e) := by
  unfold UnpackedFloat.ofScientific
  split
  · rfl
  split
  · rfl
  split
  · rfl
  split
  · exact isPlus_mul spec (b := .finite .positive _ _ _) rfl rfl
  · exact isPlus_div spec (b := .finite .positive _ _ _) rfl rfl

/-! ## Numbers in 64 bits -/

/-- Parts with a positive sign are a number unless they are those of a NaN. -/
theorem isPlus_unpack_packComponents {spec : Format} {e : BitVec spec.exponentBits}
    {m : BitVec spec.mantissaBitsWithoutImplicit} (h : e = -1#_ → m = 0#_) :
    IsPlus (UnpackedFloat.unpack spec (packComponents spec .positive e m)) := by
  unfold UnpackedFloat.unpack
  simp only [unpackMantissa_packComponents, unpackExponent_packComponents,
    unpackSign_packComponents, Sign.ofBitVec_toBitVec]
  split
  · next he => rw [if_pos (h he)]; rfl
  split
  · split <;> rfl
  · rfl

theorem isPlus_unpack_pack (ha : IsPlus a) :
    IsPlus (UnpackedFloat.unpack .binary64 (UnpackedFloat.pack .binary64 a)) := by
  cases a with
  | notANumber => exact ha.elim
  | infinity s => cases ha; exact isPlus_unpack_packComponents fun _ => rfl
  | zero s => cases ha; exact isPlus_unpack_packComponents fun _ => rfl
  | finite s m e hm =>
    cases ha
    unfold UnpackedFloat.pack
    dsimp only
    split
    · exact isPlus_unpack_packComponents fun _ => rfl
    split
    · next hfit _ =>
      -- The exponent is below the greatest one, which is that of infinity.
      refine isPlus_unpack_packComponents fun he => absurd (congrArg BitVec.toNat he) ?_
      rw [BitVec.toNat_ofNat, Nat.mod_eq_of_lt (by omega)]
      exact fun h => hfit (h ▸ by decide)
    · exact isPlus_unpack_packComponents fun he => absurd he (by decide)

/-! ## Doubles -/

variable {x : Float}

theorem zero_le_iff : 0 ≤ x ↔ (UnpackedFloat.zero .positive).le x.toModel.unpack = true :=
  decide_eq_true_iff

theorem lt_zero_iff : x < 0 ↔ x.toModel.unpack.lt (.zero .positive) = true := decide_eq_true_iff

theorem zero_le_of_isPlus (h : IsPlus x.toModel.unpack) : 0 ≤ x := by
  rw [zero_le_iff]
  cases hx : x.toModel.unpack <;> rw [hx] at h <;> cases h <;> rfl

/-- Only what is no number is neither below zero nor at least zero. -/
theorem zero_le_or_isNaN_of_not_lt (h : ¬x < 0) : 0 ≤ x ∨ x.isNaN = true := by
  rw [lt_zero_iff] at h
  rw [zero_le_iff]
  change _ ∨ x.toModel.unpack.isNaN = true
  generalize x.toModel.unpack = u at h
  cases u with
  | notANumber => exact .inr rfl
  | zero s => exact .inl rfl
  | infinity s | finite s =>
    cases s with
    | positive => exact .inl rfl
    | negative => exact absurd rfl h

theorem isPlus_pack (ha : IsPlus a) : IsPlus (Float.Model.pack a).unpack := isPlus_unpack_pack ha

theorem isSize_powerOfTen {x : Float} (hx : x ∈ Float.exactlyRepresentablePowersOfTen) :
    IsSize x.toModel.unpack := by
  have h : ∀ x ∈ Float.exactlyRepresentablePowersOfTen.toList, IsSize x.toModel.unpack := by
    decide +kernel
  exact h x hx.val

theorem isPlus_ofScientific_double (m : Nat) (s : Bool) (e : Nat) :
    IsPlus (Float.ofScientific m s e).toModel.unpack := by
  unfold Float.ofScientific
  split
  · next h =>
    have hm : IsPlus m.toUInt64.toFloat.toModel.unpack :=
      isPlus_pack (isPlus_normalize _ (Int.natCast_nonneg _) 0)
    dsimp only
    split
    · exact isPlus_pack (isPlus_div _ hm (isSize_powerOfTen (Array.getElem_mem _)))
    · exact isPlus_pack (isPlus_mul _ hm (isSize_powerOfTen (Array.getElem_mem _)))
  · exact isPlus_pack (isPlus_ofScientific ..)

theorem zero_le_ofScientific (m : Nat) (s : Bool) (e : Nat) : 0 ≤ Float.ofScientific m s e :=
  zero_le_of_isPlus (isPlus_ofScientific_double m s e)

theorem isPlus_magnitude (n : Nat) (e : Int) : IsPlus (magnitude n e).toModel.unpack := by
  have hzero : IsPlus (0 : Float).toModel.unpack := isPlus_ofScientific_double 0 false 0
  have hinfinite : (1.0 / 0.0 : Float).toModel.unpack = .infinity .positive := rfl
  unfold magnitude
  split
  · exact hzero
  dsimp only
  split
  · rw [hinfinite]; rfl
  split
  · exact hzero
  · exact isPlus_ofScientific_double ..

theorem zero_le_of_floatOfInt? {n : Int} (hn : 0 ≤ n) (h : floatOfInt? n = some x) : 0 ≤ x := by
  unfold floatOfInt? at h
  dsimp only at h
  split at h
  · nomatch h
  · rw [if_neg (by omega)] at h
    cases h
    exact zero_le_of_isPlus (isPlus_magnitude ..)

end FeatureRun.Decimal
