import Mathlib
import Scriptlet.Number.Fraction

namespace Scriptlet.Number

open Float.Model (Format UnpackedFloat)
open Float.Model.UnpackedFloat

def exact (x : Float) : ℚ :=
  match x.toModel.unpack with
  | .finite .positive m e _ => m * 2 ^ e
  | .finite .negative m e _ => -(m * 2 ^ e)
  | _ => 0

def Fraction.value (f : Fraction) : ℚ := f.mantissa * 2 ^ f.exponent

theorem Fraction.floor_eq (f : Fraction) : f.floor = ⌊f.value⌋₊ := by
  unfold floor value
  by_cases he : 0 ≤ f.exponent
  · rw [if_pos he, Nat.shiftLeft_eq]
    obtain ⟨n, hn⟩ := Int.eq_ofNat_of_zero_le he
    rw [hn, zpow_natCast, Int.toNat_natCast]
    exact_mod_cast (Nat.floor_natCast (R := ℚ) (f.mantissa * 2 ^ n)).symm
  · rw [if_neg he, Nat.shiftRight_eq_div_pow]
    obtain ⟨n, hn⟩ : ∃ n : Nat, f.exponent = -n := ⟨(-f.exponent).toNat, by omega⟩
    rw [hn, neg_neg, Int.toNat_natCast, zpow_neg, zpow_natCast, ← div_eq_mul_inv]
    exact_mod_cast (Nat.floor_div_eq_div (K := ℚ) f.mantissa (2 ^ n)).symm

def fractionOf : UnpackedFloat → Magnitude
  | .notANumber => .nan
  | .infinity _ => .infinite
  | .zero _ => .finite ⟨0, -1074⟩
  | .finite _ m e _ => .finite ⟨m, e⟩

section

variable (b : BitVec Format.binary64.numBits)

theorem unpackExponent_toNat : (unpackExponent b).toNat = b.toNat / hiddenBit % 2048 := by
  change (b.toNat >>> 52) % 2 ^ 11 = _
  rw [Nat.shiftRight_eq_div_pow]
  rfl

theorem unpackMantissa_toNat : (unpackMantissa b).toNat = b.toNat % hiddenBit := rfl

theorem hiddenBit_append {w : Nat} (m : BitVec w) : (1#1 ++ m).toNat = 2 ^ w + m.toNat := by
  have hm : m.toNat < 2 ^ w := m.isLt
  rw [BitVec.toNat_append, ← Nat.shiftLeft_add_eq_or_of_lt hm, Nat.shiftLeft_eq]
  simp

theorem fractionOf_unpack : fractionOf (unpack Format.binary64 b) =
    if b.toNat / hiddenBit % 2048 = 2047 then
      if b.toNat % hiddenBit = 0 then .infinite else .nan
    else if b.toNat / hiddenBit % 2048 = 0 then .finite ⟨b.toNat % hiddenBit, -1074⟩
    else .finite ⟨hiddenBit + b.toNat % hiddenBit, (b.toNat / hiddenBit % 2048 : Nat) - 1075⟩ := by
  rw [← unpackExponent_toNat, ← unpackMantissa_toNat]
  unfold unpack
  have hbias : Format.binary64.exponentBias = 1023 := rfl
  have hbits : Format.binary64.mantissaBitsWithoutImplicit = 52 := rfl
  have hmantissa : unpackMantissa b = 0#_ ↔ (unpackMantissa b).toNat = 0 := BitVec.toNat_eq
  have hinfinite : unpackExponent b = (-1#_) ↔ (unpackExponent b).toNat = 2047 := BitVec.toNat_eq
  have hsmall : unpackExponent b = 0#_ ↔ (unpackExponent b).toNat = 0 := BitVec.toNat_eq
  by_cases he : (unpackExponent b).toNat = 2047
  · rw [if_pos he, if_pos (hinfinite.mpr he)]
    by_cases hm : (unpackMantissa b).toNat = 0
    · rw [if_pos hm, if_pos (hmantissa.mpr hm)]
      rfl
    · rw [if_neg hm, if_neg (mt hmantissa.mp hm)]
      rfl
  · rw [if_neg he, if_neg (mt hinfinite.mp he)]
    by_cases hz : (unpackExponent b).toNat = 0
    · rw [if_pos hz, if_pos (hsmall.mpr hz)]
      by_cases hm : (unpackMantissa b).toNat = 0
      · rw [dif_pos (hmantissa.mpr hm), hm]
        rfl
      · rw [dif_neg (mt hmantissa.mp hm), hz]
        rfl
    · rw [if_neg hz, if_neg (mt hsmall.mp hz), fractionOf, hiddenBit_append]
      rfl

end

theorem magnitude_eq (x : Float) : magnitude x = fractionOf x.toModel.unpack :=
  (fractionOf_unpack x.toBits.toBitVec).symm

theorem unpack_of_isFinite {x : Float} (hx : x.isFinite = true) :
    (∃ s, x.toModel.unpack = .zero s) ∨ ∃ s m e hm, x.toModel.unpack = .finite s m e hm := by
  have hfinite : x.toModel.unpack.isFinite = true := hx
  cases hu : x.toModel.unpack with
  | notANumber | infinity =>
    rw [hu] at hfinite
    cases hfinite
  | zero s => exact .inl ⟨s, rfl⟩
  | finite s m e hm => exact .inr ⟨s, m, e, hm, rfl⟩

theorem lt_zero_iff {x : Float} (hx : x.isFinite = true) : x < 0 ↔ exact x < 0 := by
  have hlt : x < 0 ↔ x.toModel.unpack.lt (.zero .positive) = true := decide_eq_true_iff
  rw [hlt, exact]
  rcases unpack_of_isFinite hx with ⟨s, hu⟩ | ⟨s, m, e, hm, hu⟩
  · rw [hu]
    exact ⟨nofun, fun h => absurd h (lt_irrefl 0)⟩
  · have hpos : (0 : ℚ) < m * 2 ^ e := by positivity
    rw [hu]
    cases s with
    | negative => exact ⟨fun _ => neg_lt_zero.mpr hpos, fun _ => rfl⟩
    | positive => exact ⟨nofun, fun h => absurd h hpos.not_gt⟩

theorem magnitude_of_finite {x : Float} (hx : x.isFinite = true) :
    ∃ v, magnitude x = .finite v ∧ v.value = |exact x| := by
  rw [magnitude_eq, exact]
  rcases unpack_of_isFinite hx with ⟨s, hu⟩ | ⟨s, m, e, hm, hu⟩
  · rw [hu]
    exact ⟨_, rfl, by simp [Fraction.value]⟩
  · have hpos : (0 : ℚ) < m * 2 ^ e := by positivity
    rw [hu]
    refine ⟨_, rfl, ?_⟩
    cases s with
    | negative => exact ((abs_neg _).trans (abs_of_pos hpos)).symm
    | positive => exact (abs_of_pos hpos).symm

theorem isFinite_of_magnitude {x : Float} {v : Fraction} (h : magnitude x = .finite v) :
    x.isFinite = true := by
  rw [magnitude_eq] at h
  change x.toModel.unpack.isFinite = true
  cases hu : x.toModel.unpack with
  | notANumber | infinity =>
    rw [hu] at h
    cases h
  | zero | finite => rfl

theorem indexOfFloat?_eq_some {x : Float} {i : Nat} : indexOfFloat? x = some i ↔
    x.isFinite = true ∧ 0 ≤ exact x ∧ i = min ⌊exact x⌋₊ maxIndex := by
  unfold indexOfFloat?
  constructor
  · intro h
    split at h
    · next v hv =>
      have hx : x.isFinite = true := isFinite_of_magnitude hv
      obtain ⟨w, hw, hvalue⟩ := magnitude_of_finite hx
      obtain rfl : v = w := Magnitude.finite.inj (hv.symm.trans hw)
      split at h
      · cases h
      · next hneg =>
        have hnonneg : 0 ≤ exact x := not_lt.mp (mt (lt_zero_iff hx).mpr hneg)
        cases h
        exact ⟨hx, hnonneg, by rw [Fraction.floor_eq, hvalue, abs_of_nonneg hnonneg]⟩
    · cases h
  · rintro ⟨hx, hnonneg, rfl⟩
    obtain ⟨v, hv, hvalue⟩ := magnitude_of_finite hx
    have hneg : ¬ x < 0 := mt (lt_zero_iff hx).mp (not_lt.mpr hnonneg)
    simp only [hv, if_neg hneg]
    rw [Fraction.floor_eq, hvalue, abs_of_nonneg hnonneg]

end Scriptlet.Number
