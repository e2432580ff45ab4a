import Scriptlet.Scan

namespace Scriptlet.FloatLiterals

open Float.Model (Format UnpackedFloat)
open Float.Model.UnpackedFloat

variable {spec : Format}

theorem isNaN_unpack {b : BitVec spec.numBits} (h : (unpack spec b).isNaN = true) :
    unpackExponent b = (-1#_) ∧ unpackMantissa b ≠ 0#_ := by
  unfold unpack at h
  by_cases he : unpackExponent b = (-1#_)
  · by_cases hm : unpackMantissa b = 0#_
    · rw [if_pos he, if_pos hm] at h
      cases h
    · exact ⟨he, hm⟩
  · rw [if_neg he] at h
    by_cases hz : unpackExponent b = 0#_
    · rw [if_pos hz] at h
      by_cases hm : unpackMantissa b = 0#_
      · rw [dif_pos hm] at h
        cases h
      · rw [dif_neg hm] at h
        cases h
    · rw [if_neg hz] at h
      cases h

theorem isNaN_unpack_pack {f : UnpackedFloat} (h : f.isNaN = false) :
    (unpack spec (pack spec f)).isNaN = false := by
  rw [Bool.eq_false_iff]
  intro hn
  obtain ⟨he, hm⟩ := isNaN_unpack hn
  revert he hm h
  fun_cases pack with
  | case1 => exact nofun
  | case2 s => simp [packedInfinity]
  | case3 s => simp [packedZero]
  | case4 s m e hm biasedExponent h =>
    intro _
    simp [packedInfinity]
  | case5 s m e hm actualMantissaBits biasedExponent h₁ h₂ =>
    intro _ he _
    rw [unpackExponent_packComponents, BitVec.neg_one_eq_allOnes, ← BitVec.toNat_inj,
      BitVec.toNat_ofNat, BitVec.toNat_allOnes, Nat.mod_eq_of_lt (by omega)] at he
    omega
  | case6 s m e hm actualMantissaBits biasedExponent h₁ h₂ =>
    intro _
    simp [Nat.pos_iff_ne_zero.1 spec.he]

theorem isNaN_zero_or_finite {s : Float.Model.UnpackedFloat.Sign} {m : Nat} {e : Int} :
    (if h : m = 0 then zero s else finite s m e (Nat.pos_of_ne_zero h)).isNaN = false := by
  by_cases h : m = 0
  · rw [dif_pos h]
    rfl
  · rw [dif_neg h]
    rfl

theorem isNaN_roundWithAccuracy {s : Float.Model.UnpackedFloat.Sign} {m : Nat} {e : Int} {a : Accuracy} :
    (roundWithAccuracy spec s m e a).isNaN = false :=
  isNaN_zero_or_finite

theorem isNaN_ofNat {n : Nat} : (ofNat spec n).isNaN = false := by
  unfold ofNat ofInt UnpackedFloat.normalize UnpackedFloat.round
  split
  · exact isNaN_roundWithAccuracy
  · rfl
  · exact isNaN_roundWithAccuracy

def nonzero : UnpackedFloat → Bool
  | .finite .. => true
  | _ => false

theorem isNaN_div {x y : UnpackedFloat} (hx : x.isNaN = false) (hy : nonzero y) :
    (div spec x y).isNaN = false := by
  cases y with
  | finite s m e hm =>
    cases x with
    | notANumber => cases hx
    | infinity => rfl
    | zero => rfl
    | finite => exact isNaN_roundWithAccuracy
  | _ => cases hy

theorem nonzero_powersOfTen :
    ∀ e (h : e < 23), nonzero (Float.exactlyRepresentablePowersOfTen[e]).toModel.unpack := by
  decide +kernel

theorem isNaN_ofModel_pack {f : UnpackedFloat} (h : f.isNaN = false) :
    (Float.ofModel (Float.Model.pack f)).isNaN = false := by
  change (unpack Format.binary64 (UInt64.ofBitVec (pack Format.binary64 f)).toBitVec).isNaN = false
  exact isNaN_unpack_pack h

theorem isNaN_scaled {m : Nat} {e : Int} : (ofScientific spec m e).isNaN = false := by
  fun_cases ofScientific with
  | case1 | case2 | case3 => rfl
  | case4 => exact isNaN_roundWithAccuracy
  | case5 => exact isNaN_div rfl rfl

theorem isNaN_ofScientific {m e : Nat} : (Float.ofScientific m true e).isNaN = false := by
  unfold Float.ofScientific
  split
  · next h =>
    have hpower := nonzero_powersOfTen e (Nat.lt_succ_of_le h.2)
    have hwhole : (m.toUInt64.toFloat).isNaN = false := isNaN_ofModel_pack isNaN_ofNat
    exact isNaN_ofModel_pack (isNaN_div hwhole hpower)
  · exact isNaN_ofModel_pack isNaN_scaled

theorem compare_self {x : UnpackedFloat} (h : x.isNaN = false) : x.compare x = some .eq := by
  cases x with
  | notANumber => cases h
  | infinity s => cases s <;> rfl
  | zero s => rfl
  | finite s m e hm =>
    have he : compare e e = .eq := Std.ReflCmp.compare_self
    have hm : compare m m = .eq := Std.ReflCmp.compare_self
    cases s with
    | positive =>
      change some ((compare e e).then (compare m m)) = some .eq
      rw [he, hm]
      rfl
    | negative =>
      change some ((compare e e).then (compare m m)).swap = some .eq
      rw [he, hm]
      rfl

theorem beq_self {x : Float} (h : x.isNaN = false) : (x == x) = true := by
  change (x.toModel.unpack.compare x.toModel.unpack == some .eq) = true
  rw [compare_self h]
  rfl

end Scriptlet.FloatLiterals
