import Scriptlet.Operation.Binary
import Scriptlet.Operation.Unary

namespace Scriptlet

def Value.Plain : Value → Prop
  | function _ | native _ | classRef _ | object _ | array _ => False
  | _ => True

variable {a b v : Value} {line : Nat}

theorem remainder_plain (m n : Int64) : (remainder m n).Plain := by
  unfold remainder
  split <;> trivial

theorem integerArithmetic_plain {op : ArithmeticOp} {m n : Int64}
    (h : integerArithmetic op m n = some v) : v.Plain := by
  have word {x : Int} (h : (Number.word? x).map Value.integer = some v) : v.Plain := by
    obtain ⟨w, -, rfl⟩ := Option.map_eq_some_iff.mp h
    trivial
  cases op with
  | add | sub | mul => exact word h
  | div =>
    dsimp only [integerArithmetic] at h
    split at h
    · cases h
      trivial
    · exact word h
  | mod =>
    cases h
    exact remainder_plain m n
  | pow =>
    cases h
    trivial

theorem realArithmetic_plain (op : ArithmeticOp) (x y : Float) : (realArithmetic op x y).Plain := by
  cases op with
  | div =>
    dsimp only [realArithmetic]
    split <;> trivial
  | mod => exact remainder_plain _ _
  | _ => trivial

theorem Heap.mixedArithmetic_plain {h : Heap} {op : ArithmeticOp}
    (hv : h.mixedArithmetic op a b line = .ok v) : v.Plain := by
  unfold mixedArithmetic at hv
  split at hv
  · cases hv
    split <;> trivial
  · split at hv
    · cases hv
      exact realArithmetic_plain _ _ _
    · cases hv

theorem Heap.arithmetic_plain {h : Heap} {op : ArithmeticOp} (hv : h.arithmetic op a b line = .ok v) :
    v.Plain := by
  unfold arithmetic at hv
  split at hv
  · cases hv
    trivial
  · split at hv
    · split at hv
      · next hi =>
        cases hv
        exact integerArithmetic_plain hi
      · cases hv
    · exact mixedArithmetic_plain hv

theorem bitwise_plain {op : BitwiseOp} (h : bitwise op a b line = .ok v) : v.Plain := by
  unfold bitwise at h
  cases ha : bits a line with
  | error e =>
    rw [ha] at h
    cases h
  | ok m =>
    cases hb : bits b line with
    | error e =>
      rw [ha, hb] at h
      cases h
    | ok n =>
      rw [ha, hb] at h
      cases m <;> cases n <;> cases h <;> trivial

theorem order_plain {op : OrderOp} (h : order op a b line = .ok v) : v.Plain := by
  unfold order at h
  split at h
  · cases h
    trivial
  · split at h
    · cases h
      trivial
    · split at h
      · cases h
        trivial
      · cases h

theorem Heap.binary_plain {h : Heap} {op : BinaryOp} (hv : h.binary op a b line = .ok v) : v.Plain := by
  cases op with
  | arithmetic op => exact arithmetic_plain hv
  | bitwise op => exact bitwise_plain hv
  | equality op =>
    cases hv
    unfold equality
    split <;> trivial
  | order op => exact order_plain hv

theorem complement_plain (h : complement a line = .ok v) : v.Plain := by
  unfold complement at h
  cases ha : bits a line with
  | error e =>
    rw [ha] at h
    cases h
  | ok m =>
    rw [ha] at h
    cases m <;> cases h <;> trivial

theorem negate_plain (h : negate a line = .ok v) : v.Plain := by
  unfold negate at h
  split at h
  · cases h
    trivial
  · split at h
    · cases h
      trivial
    · cases h
  all_goals
    cases h
    trivial

theorem Step.apply_plain {s : Step} (h : s.apply a line = .ok v) : v.Plain := by
  unfold apply at h
  split at h
  · split at h
    · cases h
      trivial
    · cases h
  · split at h <;> cases h <;> trivial

theorem UnaryOp.apply_plain {op : UnaryOp} (h : op.apply a line = .ok v) : v = a ∨ v.Plain := by
  cases op with
  | negate => exact .inr (negate_plain h)
  | identity =>
    cases h
    exact .inl rfl
  | not =>
    cases h
    exact .inr trivial
  | bitNot => exact .inr (complement_plain h)
  | step s => exact .inr (Step.apply_plain h)

end Scriptlet
