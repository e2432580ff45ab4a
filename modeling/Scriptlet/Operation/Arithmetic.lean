import Scriptlet.Fault
import Scriptlet.Heap.Render

namespace Scriptlet

def largestFloat : Float := .ofBits 0x7FEFFFFFFFFFFFFF

def power (x y : Float) : Value := .real (x.pow y)

def remainder (a b : Int64) : Value :=
  if b = 0 then .nan else .integer (.ofInt (a.toInt.tmod b.toInt))

/-- `none` if the exact result is out of range. -/
def integerArithmetic (op : ArithmeticOp) (a b : Int64) : Option Value :=
  match op with
  | .add => (Number.word? (a.toInt + b.toInt)).map .integer
  | .sub => (Number.word? (a.toInt - b.toInt)).map .integer
  | .mul => (Number.word? (a.toInt * b.toInt)).map .integer
  | .div =>
    if b = 0 then some (.real largestFloat)
    else (Number.word? (a.toInt.tdiv b.toInt)).map .integer
  | .mod => some (remainder a b)
  | .pow => some (power (Number.widen a) (Number.widen b))

def realArithmetic (op : ArithmeticOp) (x y : Float) : Value :=
  match op with
  | .add => .real (x + y)
  | .sub => .real (x - y)
  | .mul => .real (x * y)
  | .div => if y == 0 then .real largestFloat else .real (x / y)
  | .mod => remainder (Number.truncate x) (Number.truncate y)
  | .pow => power x y

def Heap.mixedArithmetic (h : Heap) (op : ArithmeticOp) (a b : Value) (line : Nat) :
    Except Fault Value :=
  if a.kind = .string ∨ b.kind = .string then
    .ok (if op = .add then .text (h.render a ++ h.render b) else .nan)
  else
    match a.number?, b.number? with
    | some x, some y => .ok (realArithmetic op x y)
    | _, _ => .error ⟨.cannotApply op a.kind b.kind, line⟩

def Heap.arithmetic (h : Heap) (op : ArithmeticOp) (a b : Value) (line : Nat) :
    Except Fault Value :=
  if a = .nan ∨ b = .nan then .ok .nan
  else
    match a, b with
    | .integer m, .integer n =>
      match integerArithmetic op m n with
      | some v => .ok v
      | none => .error ⟨.overflow, line⟩
    | a, b => h.mixedArithmetic op a b line

end Scriptlet
