import Scriptlet.Proofs.IntegerArithmetic
import Scriptlet.Proofs.MarkerPropagation

namespace Scriptlet

/-- Beside a string or the marker the other operand need not have a number. -/
def Value.excuses : Value → Bool
  | text _ | nan => true
  | _ => false

def Unmatched (a b : Value) : Prop :=
  a.excuses = false ∧ b.excuses = false ∧ (a.isReference = true ∨ b.isReference = true)

def ArithmeticOp.exact? : ArithmeticOp → Int → Int → Option Int
  | add, m, n => some (m + n)
  | sub, m, n => some (m - n)
  | mul, m, n => some (m * n)
  | div, m, n => if n = 0 then none else some (m.tdiv n)
  | mod, _, _ => none
  | pow, _, _ => none

inductive Refused (line : Nat) : BinaryOp → Value → Value → Fault → Prop
  | overflow {op : ArithmeticOp} {m n : Int64} {r : Int} :
      op.exact? m.toInt n.toInt = some r → ¬ InWord r →
      Refused line (.arithmetic op) (.integer m) (.integer n) ⟨.overflow, line⟩
  | cannotApply {op : ArithmeticOp} {a b : Value} : Unmatched a b →
      Refused line (.arithmetic op) a b ⟨.cannotApply op a.kind b.kind, line⟩
  | cannotCompare {op : OrderOp} {a b : Value} : Unmatched a b →
      Refused line (.order op) a b ⟨.cannotCompare op a.kind b.kind, line⟩
  | noBitsLeft {op : BitwiseOp} {a b : Value} : a.isReference = true →
      Refused line (.bitwise op) a b ⟨.noBits a.kind, line⟩
  | noBitsRight {op : BitwiseOp} {a b : Value} : a.isReference = false → b.isReference = true →
      Refused line (.bitwise op) a b ⟨.noBits b.kind, line⟩

section

variable {a b v : Value} {m n : Int64} {line : Nat} {fault : Fault}

theorem hasNoOrder_eq_excuses (v : Value) : v.hasNoOrder = v.excuses := by
  cases v <;> rfl

theorem excuses_eq_false : v.excuses = false ↔ v ≠ .nan ∧ v.kind ≠ .string := by
  cases v <;> simp [Value.excuses, Value.kind]

theorem number?_eq_none (hv : v.excuses = false) : v.number? = none ↔ v.isReference = true := by
  cases v <;> simp_all [Value.number?, Value.excuses, Value.isReference]

theorem unmatched_iff : Unmatched a b ↔
    a.excuses = false ∧ b.excuses = false ∧ (a.number? = none ∨ b.number? = none) := by
  unfold Unmatched
  apply and_congr_right
  intro ha
  apply and_congr_right
  intro hb
  rw [number?_eq_none ha, number?_eq_none hb]

theorem not_unmatched_integers : ¬ Unmatched (.integer m) (.integer n) := by
  simp [Unmatched, Value.isReference]

theorem word?_eq_none {r : Int} : Number.word? r = none ↔ ¬ InWord r := by
  constructor
  · intro hnone hr
    simp [Number.word?_of_inWord hr] at hnone
  · exact Number.word?_of_not_inWord

theorem integerArithmetic_eq_none (op : ArithmeticOp) (m n : Int64) :
    integerArithmetic op m n = none ↔ ∃ r, op.exact? m.toInt n.toInt = some r ∧ ¬ InWord r := by
  have hzero : n.toInt = 0 ↔ n = 0 := Int64.toInt_inj (y := 0)
  cases op with
  | add | sub | mul => simp [integerArithmetic, ArithmeticOp.exact?, word?_eq_none]
  | div =>
    by_cases hn : n = 0
    · simp [integerArithmetic, ArithmeticOp.exact?, hn]
    · simp [integerArithmetic, ArithmeticOp.exact?, hn, hzero, word?_eq_none]
  | mod | pow => simp [integerArithmetic, ArithmeticOp.exact?]

theorem arithmetic_integers_error_iff (h : Heap) (op : ArithmeticOp) :
    h.arithmetic op (.integer m) (.integer n) line = .error fault ↔
      fault = ⟨.overflow, line⟩ ∧ integerArithmetic op m n = none := by
  have hbinary := binary_integers h op m n line
  change h.arithmetic op (.integer m) (.integer n) line = _ at hbinary
  rw [hbinary]
  cases integerArithmetic op m n with
  | none => simp [eq_comm]
  | some w => simp

theorem mixedArithmetic_error_iff (h : Heap) (op : ArithmeticOp) :
    h.mixedArithmetic op a b line = .error fault ↔
      fault = ⟨.cannotApply op a.kind b.kind, line⟩ ∧ a.kind ≠ .string ∧ b.kind ≠ .string ∧
        (a.number? = none ∨ b.number? = none) := by
  unfold Heap.mixedArithmetic
  by_cases hs : a.kind = .string ∨ b.kind = .string
  · rw [if_pos hs]
    simp only [reduceCtorEq, false_iff]
    rintro ⟨-, ha, hb, -⟩
    exact hs.elim ha hb
  · rw [if_neg hs]
    obtain ⟨ha, hb⟩ := not_or.mp hs
    cases a.number? with
    | none => simp [ha, hb, eq_comm]
    | some x => cases b.number? <;> simp [ha, hb, eq_comm]

theorem arithmetic_of_not_integers (h : Heap) (op : ArithmeticOp) (ha : a ≠ .nan) (hb : b ≠ .nan)
    (hi : ¬ ∃ m n, a = .integer m ∧ b = .integer n) :
    h.arithmetic op a b line = h.mixedArithmetic op a b line := by
  unfold Heap.arithmetic
  rw [if_neg (by simp [ha, hb])]
  split
  · next m n => exact absurd ⟨m, n, rfl, rfl⟩ hi
  · rfl

theorem arithmetic_error_iff (h : Heap) (op : ArithmeticOp) :
    h.arithmetic op a b line = .error fault ↔ Refused line (.arithmetic op) a b fault := by
  by_cases hn : a = .nan ∨ b = .nan
  · rw [arithmetic_nan h op hn]
    simp only [reduceCtorEq, false_iff]
    intro hr
    cases hr with
    | overflow => simp at hn
    | cannotApply hu =>
      obtain ⟨ha, hb, -⟩ := hu
      exact hn.elim (excuses_eq_false.mp ha).1 (excuses_eq_false.mp hb).1
  · obtain ⟨ha, hb⟩ := not_or.mp hn
    by_cases hi : ∃ m n, a = .integer m ∧ b = .integer n
    · obtain ⟨m, n, rfl, rfl⟩ := hi
      rw [arithmetic_integers_error_iff, integerArithmetic_eq_none]
      constructor
      · rintro ⟨rfl, r, hr, hword⟩
        exact .overflow hr hword
      · intro hr
        cases hr with
        | overflow hr hword => exact ⟨rfl, _, hr, hword⟩
        | cannotApply hu => exact absurd hu not_unmatched_integers
    · rw [arithmetic_of_not_integers h op ha hb hi, mixedArithmetic_error_iff]
      constructor
      · rintro ⟨rfl, hsa, hsb, hnone⟩
        apply Refused.cannotApply
        have hea : a.excuses = false := excuses_eq_false.mpr ⟨ha, hsa⟩
        have heb : b.excuses = false := excuses_eq_false.mpr ⟨hb, hsb⟩
        exact unmatched_iff.mpr ⟨hea, heb, hnone⟩
      · intro hr
        cases hr with
        | overflow => exact absurd ⟨_, _, rfl, rfl⟩ hi
        | cannotApply hu =>
          obtain ⟨hea, heb, hnone⟩ := unmatched_iff.mp hu
          exact ⟨rfl, (excuses_eq_false.mp hea).2, (excuses_eq_false.mp heb).2, hnone⟩

theorem order_of_excuses (op : OrderOp) (he : a.excuses = true ∨ b.excuses = true) :
    order op a b line = .ok (.boolean false) := by
  unfold order
  rw [hasNoOrder_eq_excuses, hasNoOrder_eq_excuses, if_pos (by simpa using he)]

theorem order_error_iff (op : OrderOp) :
    order op a b line = .error fault ↔ Refused line (.order op) a b fault := by
  have hrefused : Refused line (.order op) a b fault ↔
      fault = ⟨.cannotCompare op a.kind b.kind, line⟩ ∧ Unmatched a b := by
    constructor
    · intro hr
      cases hr with
      | cannotCompare hu => exact ⟨rfl, hu⟩
    · rintro ⟨rfl, hu⟩
      exact .cannotCompare hu
  rw [hrefused]
  by_cases he : a.excuses = true ∨ b.excuses = true
  · rw [order_of_excuses op he]
    simp only [reduceCtorEq, false_iff]
    rintro ⟨-, ha, hb, -⟩
    simp [ha, hb] at he
  · have hea : a.excuses = false := by simpa using (not_or.mp he).1
    have heb : b.excuses = false := by simpa using (not_or.mp he).2
    unfold order
    rw [hasNoOrder_eq_excuses, hasNoOrder_eq_excuses, if_neg (by simpa using he)]
    split
    · simp [not_unmatched_integers]
    · rw [unmatched_iff]
      cases a.number? with
      | none => simp [hea, heb, eq_comm]
      | some x => cases b.number? <;> simp [hea, heb, eq_comm]

theorem bitwise_error_iff (op : BitwiseOp) :
    bitwise op a b line = .error fault ↔ Refused line (.bitwise op) a b fault := by
  cases ha : a.isReference with
  | true =>
    have hrun : bitwise op a b line = .error ⟨.noBits a.kind, line⟩ := by
      rw [bitwise, bits_of_isReference ha]
      rfl
    rw [hrun]
    constructor
    · rintro ⟨⟩
      exact .noBitsLeft ha
    · intro hr
      cases hr with
      | noBitsLeft => rfl
      | noBitsRight hleft => simp [ha] at hleft
  | false =>
    obtain ⟨x, hx⟩ := exists_bits ha line
    cases hb : b.isReference with
    | true =>
      have hrun : bitwise op a b line = .error ⟨.noBits b.kind, line⟩ := by
        rw [bitwise, hx, bits_of_isReference hb]
        rfl
      rw [hrun]
      constructor
      · rintro ⟨⟩
        exact .noBitsRight ha hb
      · intro hr
        cases hr with
        | noBitsLeft hleft => simp [ha] at hleft
        | noBitsRight => rfl
    | false =>
      obtain ⟨y, hy⟩ := exists_bits hb line
      have hrun : ∃ v, bitwise op a b line = .ok v := by
        rw [bitwise, hx, hy]
        cases x with
        | none => exact ⟨_, rfl⟩
        | some m => cases y <;> exact ⟨_, rfl⟩
      obtain ⟨v, hv⟩ := hrun
      rw [hv]
      simp only [reduceCtorEq, false_iff]
      intro hr
      cases hr with
      | noBitsLeft hleft => simp [ha] at hleft
      | noBitsRight _ hright => simp [hb] at hright

end

/-- An operator fails exactly with what `Refused` says, and so on the line it is given. Equality never
fails, and order is false beside a string or the marker. -/
theorem binary_error_iff (h : Heap) (a b : Value) (line : Nat) :
    (∀ (op : BinaryOp) (fault : Fault),
      h.binary op a b line = .error fault ↔ Refused line op a b fault) ∧
    (∀ op : EqualityOp, ∃ v, h.binary (.equality op) a b line = .ok v) ∧
    (∀ op : OrderOp, a.excuses = true ∨ b.excuses = true →
      h.binary (.order op) a b line = .ok (.boolean false)) := by
  refine ⟨fun op fault => ?_, fun op => ⟨_, rfl⟩, fun op he => order_of_excuses op he⟩
  cases op with
  | arithmetic op => exact arithmetic_error_iff h op
  | bitwise op => exact bitwise_error_iff op
  | order op => exact order_error_iff op
  | equality op =>
    constructor
    · intro herror
      cases herror
    · intro hr
      cases hr

theorem binary_error_iff_edges :
    Heap.empty.binary (.arithmetic .div) (.integer .minValue) (.integer (-1)) 3 =
        .error ⟨.overflow, 3⟩ ∧
      Heap.empty.binary (.arithmetic .sub) (.array 0) .null 4 =
        .error ⟨.cannotApply .sub .array .null, 4⟩ ∧
      ((Value.array 0).excuses = true ∨ Value.nan.excuses = true) ∧
      Heap.empty.binary (.order .less) (.array 0) .nan 5 = .ok (.boolean false) := by
  have hnan : (Value.array 0).excuses = true ∨ Value.nan.excuses = true := .inr rfl
  refine ⟨?_, ?_, hnan, ?_⟩
  · apply ((binary_error_iff Heap.empty _ _ 3).1 _ _).mpr
    apply Refused.overflow (r := 2 ^ 63) (by decide)
    unfold InWord
    decide
  · apply ((binary_error_iff Heap.empty _ _ 4).1 _ _).mpr
    exact .cannotApply ⟨rfl, rfl, .inl rfl⟩
  · exact (binary_error_iff Heap.empty _ _ 5).2.2 .less hnan

end Scriptlet
