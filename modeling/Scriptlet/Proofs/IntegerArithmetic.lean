import Mathlib
import Scriptlet.Operation.Binary
import Scriptlet.Operation.Unary

namespace Scriptlet

def InWord (n : Int) : Prop := -2 ^ 63 ≤ n ∧ n < 2 ^ 63

def Gives (r : Except Fault Value) (n : Int) : Prop := ∃ w : Int64, r = .ok (.integer w) ∧ w.toInt = n

def ExactOrOverflow (r : Except Fault Value) (n : Int) (line : Nat) : Prop :=
  (InWord n → Gives r n) ∧ (¬ InWord n → r = .error ⟨.overflow, line⟩)

namespace Number

variable {n : Int}

theorem word?_of_inWord (hn : InWord n) : word? n = some (.ofInt n) := by
  unfold InWord at hn
  rw [word?, if_pos (by unfold wordBound; omega)]

theorem word?_of_not_inWord (hn : ¬ InWord n) : word? n = none := by
  unfold InWord at hn
  rw [word?, if_neg (by unfold wordBound; omega)]

theorem inWord_toInt (w : Int64) : InWord w.toInt := ⟨w.le_toInt, w.toInt_lt⟩

end Number

def checked (n : Int) (line : Nat) : Except Fault Value :=
  (Number.word? n).elim (.error ⟨.overflow, line⟩) fun w => .ok (.integer w)

theorem checked_exact (n : Int) (line : Nat) : ExactOrOverflow (checked n line) n line := by
  constructor
  · intro hn
    refine ⟨.ofInt n, ?_, Int64.toInt_ofInt_of_le hn.1 hn.2⟩
    rw [checked, Number.word?_of_inWord hn]
    rfl
  · intro hn
    rw [checked, Number.word?_of_not_inWord hn]
    rfl

section

variable (h : Heap) {a b : Int64} {line : Nat}

theorem binary_integers (op : ArithmeticOp) (a b : Int64) (line : Nat) :
    h.binary (.arithmetic op) (.integer a) (.integer b) line =
      (integerArithmetic op a b).elim (.error ⟨.overflow, line⟩) .ok := by
  have hnan : ¬ (Value.integer a = .nan ∨ Value.integer b = .nan) := by simp
  simp only [Heap.binary, Heap.arithmetic]
  rw [if_neg hnan]
  cases integerArithmetic op a b <;> rfl

theorem binary_checked {op : ArithmeticOp} {n : Int}
    (hop : integerArithmetic op a b = (Number.word? n).map .integer) :
    ExactOrOverflow (h.binary (.arithmetic op) (.integer a) (.integer b) line) n line := by
  have hchecked : h.binary (.arithmetic op) (.integer a) (.integer b) line = checked n line := by
    rw [binary_integers, hop, checked]
    cases Number.word? n <;> rfl
  rw [hchecked]
  exact checked_exact n line

theorem divide_exact (hb : b ≠ 0) :
    ExactOrOverflow (h.binary (.arithmetic .div) (.integer a) (.integer b) line)
      (a.toInt.tdiv b.toInt) line :=
  binary_checked h (if_neg hb)

theorem divide_zero :
    h.binary (.arithmetic .div) (.integer a) (.integer 0) line = .ok (.real largestFloat) := rfl

theorem remainder_zero :
    h.binary (.arithmetic .mod) (.integer a) (.integer 0) line = .ok .nan := rfl

theorem toInt_ne_zero (hb : b ≠ 0) : b.toInt ≠ 0 := fun h => hb (Int64.toInt_inj.mp h)

theorem natAbs_tmod_lt (a : Int) {b : Int} (hb : b ≠ 0) : (a.tmod b).natAbs < b.natAbs := by
  rw [Int.natAbs_tmod]
  exact Nat.mod_lt _ (Int.natAbs_pos.mpr hb)

theorem remainder_gives (a : Int64) (hb : b ≠ 0) (line : Nat) :
    Gives (h.binary (.arithmetic .mod) (.integer a) (.integer b) line) (a.toInt.tmod b.toInt) := by
  have hlt := natAbs_tmod_lt a.toInt (toInt_ne_zero hb)
  have hword : InWord (a.toInt.tmod b.toInt) := by
    obtain ⟨hlow, hhigh⟩ := Number.inWord_toInt b
    unfold InWord
    omega
  refine ⟨.ofInt (a.toInt.tmod b.toInt), ?_, Int64.toInt_ofInt_of_le hword.1 hword.2⟩
  change Except.ok (remainder a b) = _
  rw [remainder, if_neg hb]

theorem negate_exact (a : Int64) (line : Nat) :
    ExactOrOverflow (UnaryOp.negate.apply (.integer a) line) (-a.toInt) line := by
  have hchecked : UnaryOp.negate.apply (.integer a) line = checked (-a.toInt) line := by
    simp only [UnaryOp.apply, negate, checked]
    cases Number.word? (-a.toInt) <;> rfl
  rw [hchecked]
  exact checked_exact _ line

theorem step_exact (s : Step) (a : Int64) (line : Nat) :
    ExactOrOverflow ((UnaryOp.step s).apply (.integer a) line) (a.toInt + s.amount) line := by
  have hchecked : (UnaryOp.step s).apply (.integer a) line = checked (a.toInt + s.amount) line := by
    simp only [UnaryOp.apply, Step.apply, checked]
    cases Number.word? (a.toInt + s.amount) <;> rfl
  rw [hchecked]
  exact checked_exact _ line

end

section

open Float.Model (Format UnpackedFloat)
open Float.Model.UnpackedFloat

theorem unpack_largestFloat :
    largestFloat.toModel.unpack = .finite .positive 9007199254740991 971 (by decide) := rfl

theorem unpack_finite {b : BitVec Format.binary64.numBits} {s : Float.Model.UnpackedFloat.Sign}
    {m : Nat} {e : Int} {hm : 0 < m} (h : unpack Format.binary64 b = .finite s m e hm) :
    e ≤ 971 ∧ m ≤ 9007199254740991 := by
  unfold unpack at h
  have hbias : Format.binary64.exponentBias = 1023 := rfl
  have hmantissa : (unpackMantissa b).toNat < 2 ^ 52 := (unpackMantissa b).isLt
  -- All ones in the exponent make an infinity or no number, zeros a subnormal float.
  by_cases he : unpackExponent b = (-1#_)
  · rw [if_pos he] at h
    split at h <;> cases h
  · rw [if_neg he] at h
    by_cases hz : unpackExponent b = 0#_
    · rw [if_pos hz] at h
      split at h
      · cases h
      · cases h
        simp only [hbias, hz, BitVec.toNat_ofNat]
        omega
    · rw [if_neg hz] at h
      have hmax : (unpackExponent b).toNat ≠ 2047 := fun heq => he (BitVec.eq_of_toNat_eq heq)
      have hexponent : (unpackExponent b).toNat < 2 ^ 11 := (unpackExponent b).isLt
      have hwhole : (1#1 ++ unpackMantissa b).toNat < 2 ^ 53 := (1#1 ++ unpackMantissa b).isLt
      cases h
      simp only [hbias]
      omega

theorem le_largestFloat {x : Float} (hx : x.isFinite = true) : x ≤ largestFloat := by
  have hle : x.toModel.unpack.le largestFloat.toModel.unpack = true := by
    unfold Float.Model.UnpackedFloat.le
    rw [unpack_largestFloat]
    have hfinite : x.toModel.unpack.isFinite = true := hx
    cases hu : x.toModel.unpack with
    | notANumber | infinity =>
      rw [hu] at hfinite
      cases hfinite
    | zero => rfl
    | finite s m e hm =>
      cases s with
      | negative => rfl
      | positive =>
        obtain ⟨he, hdigits⟩ := unpack_finite hu
        -- The comparison asks for the digits only where the exponents are equal.
        change ((compare e 971).then (compare m 9007199254740991)).isLE = true
        rw [Ordering.isLE_then_iff_or]
        obtain hlt | rfl := lt_or_eq_of_le he
        · exact .inl (compare_lt_iff_lt.mpr hlt)
        · exact .inr ⟨compare_eq_iff_eq.mpr rfl, Std.isLE_compare.mpr hdigits⟩
  exact decide_eq_true hle

end

/-- Arithmetic on integers is exact or an overflow; only division by zero leaves the integers, for the
largest finite float and the marker. A remainder is never refused. -/
theorem integers_exact_or_refused (h : Heap) (a b : Int64) (line : Nat) :
    let result := fun op => h.binary (.arithmetic op) (.integer a) (.integer b) line
    ExactOrOverflow (result .add) (a.toInt + b.toInt) line ∧
    ExactOrOverflow (result .sub) (a.toInt - b.toInt) line ∧
    ExactOrOverflow (result .mul) (a.toInt * b.toInt) line ∧
    (b ≠ 0 → ExactOrOverflow (result .div) (a.toInt.tdiv b.toInt) line ∧
      ∃ r : Int64, result .mod = .ok (.integer r) ∧ -|b.toInt| < r.toInt ∧ r.toInt < |b.toInt| ∧
        (r.toInt = 0 ∨ r.toInt.sign = a.toInt.sign) ∧
        a.toInt = a.toInt.tdiv b.toInt * b.toInt + r.toInt) ∧
    (b = 0 → result .div = .ok (.real largestFloat) ∧ largestFloat.isFinite = true ∧
      (∀ x : Float, x.isFinite = true → x ≤ largestFloat) ∧ result .mod = .ok .nan) ∧
    ExactOrOverflow (UnaryOp.negate.apply (.integer a) line) (-a.toInt) line ∧
    ExactOrOverflow ((UnaryOp.step .increment).apply (.integer a) line) (a.toInt + 1) line ∧
    ExactOrOverflow ((UnaryOp.step .decrement).apply (.integer a) line) (a.toInt - 1) line := by
  refine ⟨binary_checked h rfl, binary_checked h rfl, binary_checked h rfl, fun hb => ?_, ?_,
    negate_exact a line, step_exact .increment a line, step_exact .decrement a line⟩
  · obtain ⟨r, hr, hvalue⟩ := remainder_gives h a hb line
    have hlt : |a.toInt.tmod b.toInt| < |b.toInt| := by
      rw [Int.abs_eq_natAbs, Int.abs_eq_natAbs]
      exact Int.ofNat_lt.mpr (natAbs_tmod_lt a.toInt (toInt_ne_zero hb))
    obtain ⟨hlow, hhigh⟩ := abs_lt.mp hlt
    refine ⟨divide_exact h hb, r, hr, hvalue ▸ hlow, hvalue ▸ hhigh, ?_, ?_⟩
    · rw [hvalue, Int.sign_tmod]
      split
      · next hdvd => exact .inl (Int.tmod_eq_zero_of_dvd hdvd)
      · exact .inr rfl
    · rw [hvalue, Int.tdiv_mul_add_tmod]
  · rintro rfl
    exact ⟨divide_zero h, rfl, fun x hx => le_largestFloat hx, remainder_zero h⟩

theorem integers_exact_or_refused_least :
    (-1 : Int64) ≠ 0 ∧
      Heap.empty.binary (.arithmetic .div) (.integer .minValue) (.integer (-1)) 3 =
        .error ⟨.overflow, 3⟩ ∧
      ∃ r : Int64, Heap.empty.binary (.arithmetic .mod) (.integer .minValue) (.integer (-1)) 3 =
        .ok (.integer r) ∧ -1 < r.toInt ∧ r.toInt < 1 := by
  have hb : (-1 : Int64) ≠ 0 := by decide
  obtain ⟨hdiv, r, hr, hlow, hhigh, -⟩ :=
    (integers_exact_or_refused Heap.empty .minValue (-1) 3).2.2.2.1 hb
  exact ⟨hb, hdiv.2 (by unfold InWord; decide), r, hr, hlow, hhigh⟩

end Scriptlet
