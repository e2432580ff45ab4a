import Scriptlet.Fault
import Scriptlet.Heap.Render

namespace Scriptlet

def Heap.equality (h : Heap) (op : EqualityOp) (a b : Value) : Value :=
  if a = .nan ∨ b = .nan then .nan
  else
    .boolean (match op with
      | .equal => h.looseEquals a b
      | .notEqual => !h.looseEquals a b
      | .strictEqual => a.strictEquals b
      | .strictNotEqual => !a.strictEquals b)

def orderIntegers (op : OrderOp) (m n : Int64) : Bool :=
  match op with
  | .less => m.toInt < n.toInt
  | .lessEqual => m.toInt ≤ n.toInt
  | .greater => n.toInt < m.toInt
  | .greaterEqual => n.toInt ≤ m.toInt

def orderFloats (op : OrderOp) (x y : Float) : Bool :=
  match op with
  | .less => x < y
  | .lessEqual => x ≤ y
  | .greater => y < x
  | .greaterEqual => y ≤ x

def Value.hasNoOrder (v : Value) : Bool := v.kind = .string || v.kind = .nan

def order (op : OrderOp) (a b : Value) (line : Nat) : Except Fault Value :=
  if a.hasNoOrder || b.hasNoOrder then .ok (.boolean false)
  else
    match a, b with
    | .integer m, .integer n => .ok (.boolean (orderIntegers op m n))
    | a, b =>
      match a.number?, b.number? with
      | some x, some y => .ok (.boolean (orderFloats op x y))
      | _, _ => .error ⟨.cannotCompare op a.kind b.kind, line⟩

end Scriptlet
