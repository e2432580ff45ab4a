import Scriptlet.Operation.Binary
import Scriptlet.Operation.Unary

namespace Scriptlet

def Value.isReference : Value → Bool
  | function _ | native _ | classRef _ | object _ | array _ => true
  | _ => false

section

variable {a b v : Value} {line : Nat}

theorem arithmetic_nan (h : Heap) (op : ArithmeticOp) (hn : a = .nan ∨ b = .nan) :
    h.arithmetic op a b line = .ok .nan := by
  unfold Heap.arithmetic
  exact if_pos hn

theorem equality_nan (h : Heap) (op : EqualityOp) (hn : a = .nan ∨ b = .nan) :
    h.equality op a b = .nan := by
  unfold Heap.equality
  exact if_pos hn

theorem bits_of_isReference (hv : v.isReference = true) :
    bits v line = .error ⟨.noBits v.kind, line⟩ := by
  cases v with
  | function | native | classRef | object | array => rfl
  | _ => cases hv

theorem exists_bits (hv : v.isReference = false) (line : Nat) : ∃ w, bits v line = .ok w := by
  cases v with
  | function | native | classRef | object | array => cases hv
  | _ => exact ⟨_, rfl⟩

theorem bitwise_nan_left (op : BitwiseOp) :
    bitwise op .nan v line = (bits v line).map fun _ => .nan := by
  unfold bitwise
  cases bits v line <;> rfl

theorem bitwise_nan_right (op : BitwiseOp) :
    bitwise op v .nan line = (bits v line).map fun _ => .nan := by
  unfold bitwise
  cases bits v line with
  | error => rfl
  | ok w => cases w <;> rfl

theorem map_bits_nan : ((bits v line).map fun _ => Value.nan) =
    if v.isReference then .error ⟨.noBits v.kind, line⟩ else .ok .nan := by
  cases hv : v.isReference with
  | true =>
    rw [bits_of_isReference hv]
    rfl
  | false =>
    obtain ⟨w, hw⟩ := exists_bits hv line
    rw [hw]
    rfl

theorem unary_nan {op : UnaryOp} (hop : op ≠ .not) : op.apply .nan line = .ok .nan := by
  cases op with
  | not => exact absurd rfl hop
  | negate | identity | bitNot | step => rfl

end

/-- Beside the marker arithmetic and equality give the marker, whatever the other operand is. So do
bitwise operators beside everything that has bits, and a value without bits is the only fault. No
number of unary operators on any lines leads from the marker to anything else, unless one is `!`. -/
theorem marker_absorbs (h : Heap) (v : Value) (line : Nat) :
    (∀ op, h.binary (.arithmetic op) .nan v line = .ok .nan ∧
      h.binary (.arithmetic op) v .nan line = .ok .nan) ∧
    (∀ op, h.binary (.equality op) .nan v line = .ok .nan ∧
      h.binary (.equality op) v .nan line = .ok .nan) ∧
    (∀ op, let result := if v.isReference then .error ⟨.noBits v.kind, line⟩ else .ok .nan
      h.binary (.bitwise op) .nan v line = result ∧ h.binary (.bitwise op) v .nan line = result) ∧
    ∀ steps : List (UnaryOp × Nat), (∀ step ∈ steps, step.1 ≠ .not) →
      steps.foldlM (fun w step => step.1.apply w step.2) Value.nan = .ok .nan := by
  refine ⟨fun op => ?_, fun op => ?_, fun op => ?_, fun steps hsteps => ?_⟩
  · exact ⟨arithmetic_nan h op (.inl rfl), arithmetic_nan h op (.inr rfl)⟩
  · exact ⟨congrArg Except.ok (equality_nan h op (.inl rfl)),
      congrArg Except.ok (equality_nan h op (.inr rfl))⟩
  · exact ⟨(bitwise_nan_left op).trans map_bits_nan, (bitwise_nan_right op).trans map_bits_nan⟩
  · induction steps with
    | nil => rfl
    | cons step steps ih =>
      rw [List.foldlM_cons, unary_nan (hsteps step List.mem_cons_self)]
      exact ih fun s hs => hsteps s (List.mem_cons_of_mem _ hs)

theorem marker_absorbs_arrayOperand :
    (∀ step ∈ [(UnaryOp.negate, 1), (.bitNot, 2), (.step .decrement, 3)], step.1 ≠ .not) ∧
      Heap.empty.binary (.arithmetic .add) .nan (.array 0) 4 = .ok .nan ∧
      Heap.empty.binary (.bitwise .xor) (.text "7") .nan 4 = .ok .nan ∧
      [(UnaryOp.negate, 1), (.bitNot, 2), (.step .decrement, 3)].foldlM
        (fun w step => step.1.apply w step.2) Value.nan = .ok .nan := by
  have hsteps : ∀ step ∈ [(UnaryOp.negate, 1), (.bitNot, 2), (.step .decrement, 3)],
      step.1 ≠ UnaryOp.not := by decide
  exact ⟨hsteps, ((marker_absorbs Heap.empty (.array 0) 4).1 .add).1,
    ((marker_absorbs Heap.empty (.text "7") 4).2.2.1 .xor).2,
    (marker_absorbs Heap.empty .null 0).2.2.2 _ hsteps⟩

theorem marker_beside_object :
    let h : Heap := { Heap.empty with objects := #[.empty] }
    h.binary (.bitwise .and) .nan (.object 0) 7 = .error ⟨.noBits .object, 7⟩ := rfl

end Scriptlet
