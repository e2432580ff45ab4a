import Mathlib
import Scriptlet.Proofs.IntegerArithmetic

namespace Scriptlet

section

variable {a c : Int64} {s : Nat}

theorem toInt_and_63 (b : Int64) : (b &&& 63).toInt = b.toInt % 64 := by
  have hmask : b.toBitVec.toNat &&& 63 = b.toBitVec.toNat % 64 := Nat.and_two_pow_sub_one_eq_mod _ 6
  have hlit : (63 : Int64).toBitVec.toNat = 63 := rfl
  rw [← Int64.toInt_toBitVec, ← Int64.toInt_toBitVec, Int64.toBitVec_and,
    BitVec.toInt_eq_toNat_cond, BitVec.toNat_and, hlit, hmask, BitVec.toInt_eq_toNat_cond]
  split <;> split <;> omega

theorem shiftCount?_eq (b : Int64) :
    ∃ count, shiftCount? b = some count ∧ count.toNat = (b.toInt % 64).toNat := by
  have hlow := Int.emod_nonneg b.toInt (b := 64) (by decide)
  have hhigh := Int.emod_lt_of_pos b.toInt (b := 64) (by decide)
  refine ⟨.ofNat (b.toInt % 64).toNat, ?_, ?_⟩
  · unfold shiftCount?
    rw [toInt_and_63]
    exact if_pos ⟨hlow, by omega⟩
  · rw [UInt32.toNat_ofNat']
    omega

theorem smod_toNat {y : BitVec 64} (hy : y.toInt = s) (hs : s < 64) : (y.smod 64).toNat = s := by
  have hsmod : (y.smod 64).toInt = s := by
    rw [BitVec.toInt_smod, hy]
    change (s : Int).fmod (64 : Nat) = s
    rw [Int.fmod_eq_emod_of_nonneg _ (by omega)]
    omega
  rw [BitVec.toInt_eq_toNat_cond] at hsmod
  split at hsmod <;> omega

theorem toInt_shiftLeft (hc : c.toInt = s) (hs : s < 64) :
    (a <<< c).toInt = (a.toInt * 2 ^ s).bmod (2 ^ 64) := by
  rw [← Int64.toInt_toBitVec] at hc
  rw [← Int64.toInt_toBitVec, Int64.toBitVec_shiftLeft, BitVec.shiftLeft_eq', smod_toNat hc hs,
    BitVec.toInt_shiftLeft, Nat.shiftLeft_eq, ← Int64.toInt_toBitVec a, BitVec.toInt_eq_toNat_bmod,
    Int.bmod_mul_bmod]
  push_cast
  rfl

theorem toInt_shiftRight (hc : c.toInt = s) (hs : s < 64) : (a >>> c).toInt = a.toInt / 2 ^ s := by
  rw [← Int64.toInt_toBitVec] at hc
  rw [← Int64.toInt_toBitVec, Int64.toBitVec_shiftRight, BitVec.toInt_sshiftRight',
    smod_toNat hc hs, Int.shiftRight_eq_div_pow, Int64.toInt_toBitVec]
  push_cast
  rfl

theorem toNat_toBitVec (a : Int64) : (a.toBitVec.toNat : Int) = a.toInt % 2 ^ 64 := by
  have hlt := a.toBitVec.isLt
  rw [← Int64.toInt_toBitVec, BitVec.toInt_eq_toNat_bmod]
  change _ = (a.toBitVec.toNat : Int).bmod (2 ^ 64) % (2 ^ 64 : Nat)
  rw [Int.bmod_emod]
  omega

theorem toInt_shiftRightZero {c : UInt64} (hc : c.toNat = s) (hs : s < 64) :
    (a.toUInt64 >>> c).toInt64.toInt = (a.toInt % 2 ^ 64 / 2 ^ s).bmod (2 ^ 64) := by
  have hmod : (c.toBitVec % 64).toNat = s := by
    rw [BitVec.toNat_umod]
    change c.toNat % 64 = s
    omega
  rw [← Int64.toInt_toBitVec, UInt64.toBitVec_toInt64, UInt64.toBitVec_shiftRight,
    Int64.toBitVec_toUInt64, BitVec.ushiftRight_eq', hmod, BitVec.toInt_eq_toNat_bmod,
    BitVec.toNat_ushiftRight, Nat.shiftRight_eq_div_pow, Int.natCast_ediv, toNat_toBitVec]
  push_cast
  rfl

theorem testBit_toInt {w : Nat} (x : BitVec w) (i : Nat) :
    x.toInt.testBit i = if i < w then x.getLsbD i else x.msb := by
  rw [BitVec.toInt_eq_msb_cond]
  cases hx : x.msb with
  | false =>
    rw [if_neg Bool.false_ne_true]
    change x.toNat.testBit i = _
    rw [BitVec.testBit_toNat]
    split
    · rfl
    · exact BitVec.getLsbD_of_ge x i (by omega)
  | true =>
    -- The digits of a negative integer are those of its complement, each of them flipped.
    have hneg : (x.toNat : Int) - (2 ^ w : Nat) = Int.negSucc (~~~x).toNat := by
      have hlt := x.isLt
      rw [BitVec.toNat_not, Int.negSucc_eq]
      omega
    rw [if_pos rfl, hneg]
    change (!(~~~x).toNat.testBit i) = _
    rw [BitVec.testBit_toNat, BitVec.getLsbD_not]
    split <;> simp [*]

theorem testBit_and (a b : Int64) (i : Nat) :
    (a &&& b).toInt.testBit i = (a.toInt.testBit i && b.toInt.testBit i) := by
  simp only [← Int64.toInt_toBitVec, Int64.toBitVec_and, testBit_toInt, BitVec.getLsbD_and,
    BitVec.msb_and]
  split <;> rfl

theorem testBit_or (a b : Int64) (i : Nat) :
    (a ||| b).toInt.testBit i = (a.toInt.testBit i || b.toInt.testBit i) := by
  simp only [← Int64.toInt_toBitVec, Int64.toBitVec_or, testBit_toInt, BitVec.getLsbD_or,
    BitVec.msb_or]
  split <;> rfl

theorem testBit_xor (a b : Int64) (i : Nat) :
    (a ^^^ b).toInt.testBit i = (a.toInt.testBit i ^^ b.toInt.testBit i) := by
  simp only [← Int64.toInt_toBitVec, Int64.toBitVec_xor, testBit_toInt, BitVec.getLsbD_xor,
    BitVec.msb_xor]
  split <;> rfl

theorem toInt_complement (a : Int64) : (~~~a).toInt = -a.toInt - 1 := by
  have hlow := a.le_toInt
  have hhigh := a.toInt_lt
  rw [Int64.toInt_not]
  exact Int.bmod_eq_of_le (by omega) (by omega)

theorem toInt_count {count : UInt32} (hc : count.toNat = s) (hs : s < 64) :
    count.toUInt64.toInt64.toInt = s := by
  have hbits : count.toUInt64.toBitVec.toNat = s := hc
  rw [← Int64.toInt_toBitVec, UInt64.toBitVec_toInt64, BitVec.toInt_eq_toNat_cond, hbits,
    if_pos (by omega)]

end

/-- A shift count is the remainder by 64, and its conversion to an unsigned word of 32 bits never fails.
The operators never fail either. -/
theorem bitwise_on_words (h : Heap) (a b : Int64) (line : Nat) :
    let s := (b.toInt % 64).toNat
    let result := fun op => h.binary (.bitwise op) (.integer a) (.integer b) line
    (∃ count, shiftCount? b = some count ∧ count.toNat = s) ∧
    Gives (result .shiftLeft) ((a.toInt * 2 ^ s).bmod (2 ^ 64)) ∧
    Gives (result .shiftRight) (a.toInt / 2 ^ s) ∧
    Gives (result .shiftRightZero) ((a.toInt % 2 ^ 64 / 2 ^ s).bmod (2 ^ 64)) ∧
    (∃ w : Int64, result .and = .ok (.integer w) ∧
      ∀ i, w.toInt.testBit i = (a.toInt.testBit i && b.toInt.testBit i)) ∧
    (∃ w : Int64, result .or = .ok (.integer w) ∧
      ∀ i, w.toInt.testBit i = (a.toInt.testBit i || b.toInt.testBit i)) ∧
    (∃ w : Int64, result .xor = .ok (.integer w) ∧
      ∀ i, w.toInt.testBit i = (a.toInt.testBit i ^^ b.toInt.testBit i)) ∧
    Gives (UnaryOp.bitNot.apply (.integer a) line) (-a.toInt - 1) := by
  intro s result
  have hs : s < 64 := by
    have hhigh := Int.emod_lt_of_pos b.toInt (b := 64) (by decide)
    omega
  obtain ⟨count, hcount, hvalue⟩ := shiftCount?_eq b
  have hresult (op) : result op = .ok (.integer (wordOperation op a b)) := rfl
  have hword : ((shiftCount? b).getD 0).toUInt64 = count.toUInt64 := by rw [hcount]; rfl
  have hsigned : count.toUInt64.toInt64.toInt = s := toInt_count hvalue hs
  refine ⟨⟨count, hcount, hvalue⟩, ⟨_, hresult _, ?_⟩, ⟨_, hresult _, ?_⟩, ⟨_, hresult _, ?_⟩,
    ⟨_, hresult _, testBit_and a b⟩, ⟨_, hresult _, testBit_or a b⟩,
    ⟨_, hresult _, testBit_xor a b⟩, ⟨~~~a, rfl, toInt_complement a⟩⟩
  · rw [wordOperation, hword]
    exact toInt_shiftLeft hsigned hs
  · rw [wordOperation, hword]
    exact toInt_shiftRight hsigned hs
  · rw [wordOperation, hword]
    exact toInt_shiftRightZero hvalue hs

end Scriptlet
