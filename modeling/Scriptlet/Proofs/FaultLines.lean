import Scriptlet.Operation.Binary
import Scriptlet.Operation.Unary

namespace Scriptlet

def Fault.erased (e : Fault) : Fault := ⟨e.cause, 0⟩

def SameButLine {α : Type} (r r' : Except Fault α) : Prop :=
  r.mapError Fault.erased = r'.mapError Fault.erased

namespace SameButLine

variable {α : Type}

theorem refl (r : Except Fault α) : SameButLine r r := rfl

theorem ok_iff {r : Except Fault α} {a : α} : SameButLine (.ok a) r ↔ r = .ok a := by
  constructor
  · intro h
    cases r with
    | ok b => exact (congrArg _ (Except.ok.inj h)).symm
    | error e => cases h
  · rintro rfl
    exact refl _

end SameButLine

inductive OnLines {α : Type} (l l' : Nat) : Except Fault α → Except Fault α → Prop
  | ok (a : α) : OnLines l l' (.ok a) (.ok a)
  | error (cause : Fault.Cause) : OnLines l l' (.error ⟨cause, l⟩) (.error ⟨cause, l'⟩)

namespace OnLines

variable {α β : Type} {l l' : Nat} {r r' : Except Fault α}

theorem bind {f f' : α → Except Fault β} (h : OnLines l l' r r')
    (hf : ∀ a, OnLines l l' (f a) (f' a)) : OnLines l l' (r >>= f) (r' >>= f') := by
  cases h with
  | ok a => exact hf a
  | error cause => exact .error cause

theorem sameButLine (h : OnLines l l' r r') : SameButLine r r' := by
  cases h <;> rfl

theorem line {e : Fault} (h : OnLines l l' r r') (he : r = .error e) : e.line = l := by
  subst he
  cases h
  rfl

end OnLines

section

variable (l l' : Nat)

theorem bits_onLines (v : Value) : OnLines l l' (bits v l) (bits v l') := by
  unfold bits
  split
  · exact .ok _
  · exact .ok _
  · exact .ok _
  · split
    · exact .ok _
    · exact .error _

theorem bitwise_onLines (op : BitwiseOp) (a b : Value) :
    OnLines l l' (bitwise op a b l) (bitwise op a b l') := by
  refine (bits_onLines l l' a).bind fun m => (bits_onLines l l' b).bind fun n => ?_
  split <;> exact .ok _

theorem complement_onLines (v : Value) : OnLines l l' (complement v l) (complement v l') := by
  refine (bits_onLines l l' v).bind fun n => ?_
  split <;> exact .ok _

theorem mixedArithmetic_onLines (h : Heap) (op : ArithmeticOp) (a b : Value) :
    OnLines l l' (h.mixedArithmetic op a b l) (h.mixedArithmetic op a b l') := by
  unfold Heap.mixedArithmetic
  split
  · exact .ok _
  · split
    · exact .ok _
    · exact .error _

theorem arithmetic_onLines (h : Heap) (op : ArithmeticOp) (a b : Value) :
    OnLines l l' (h.arithmetic op a b l) (h.arithmetic op a b l') := by
  unfold Heap.arithmetic
  split
  · exact .ok _
  · split
    · split
      · exact .ok _
      · exact .error _
    · exact mixedArithmetic_onLines ..

theorem order_onLines (op : OrderOp) (a b : Value) :
    OnLines l l' (order op a b l) (order op a b l') := by
  unfold order
  split
  · exact .ok _
  · split
    · exact .ok _
    · split
      · exact .ok _
      · exact .error _

theorem binary_onLines (h : Heap) (op : BinaryOp) (a b : Value) :
    OnLines l l' (h.binary op a b l) (h.binary op a b l') := by
  cases op with
  | arithmetic op => exact arithmetic_onLines l l' h op a b
  | bitwise op => exact bitwise_onLines l l' op a b
  | equality op => exact .ok _
  | order op => exact order_onLines l l' op a b

theorem negate_onLines (v : Value) : OnLines l l' (negate v l) (negate v l') := by
  unfold negate
  split
  · exact .ok _
  · split
    · exact .ok _
    · exact .error _
  · exact .ok _
  · exact .ok _
  · exact .ok _

theorem step_onLines (s : Step) (v : Value) : OnLines l l' (s.apply v l) (s.apply v l') := by
  unfold Step.apply
  split
  · split
    · exact .ok _
    · exact .error _
  · split
    · exact .ok _
    · exact .ok _

theorem unary_onLines (op : UnaryOp) (v : Value) : OnLines l l' (op.apply v l) (op.apply v l') := by
  cases op with
  | negate => exact negate_onLines l l' v
  | identity => exact .ok _
  | not => exact .ok _
  | bitNot => exact complement_onLines l l' v
  | step s => exact step_onLines l l' s v

end

theorem binary_line (h : Heap) (op : BinaryOp) (a b : Value) (l l' : Nat) :
    SameButLine (h.binary op a b l) (h.binary op a b l') := (binary_onLines l l' h op a b).sameButLine

theorem step_line (s : Step) (v : Value) (l l' : Nat) : SameButLine (s.apply v l) (s.apply v l') :=
  (step_onLines l l' s v).sameButLine

theorem unary_line (op : UnaryOp) (v : Value) (l l' : Nat) :
    SameButLine (op.apply v l) (op.apply v l') := (unary_onLines l l' op v).sameButLine

end Scriptlet
