import Scriptlet.Operation.Bitwise

namespace Scriptlet

def negate (v : Value) (line : Nat) : Except Fault Value :=
  match v with
  | .null => .ok (.integer 0)
  | .integer n =>
    match Number.word? (-n.toInt) with
    | some m => .ok (.integer m)
    | none => .error ⟨.overflow, line⟩
  | .real x => .ok (.real (-x))
  | .boolean b => .ok (.real (if b then -1 else -0))
  | _ => .ok .nan

def Step.amount : Step → Int
  | increment => 1
  | decrement => -1

def Step.apply (s : Step) (v : Value) (line : Nat) : Except Fault Value :=
  match v with
  | .integer n =>
    match Number.word? (n.toInt + s.amount) with
    | some m => .ok (.integer m)
    | none => .error ⟨.overflow, line⟩
  | v =>
    match v.number? with
    | some x => .ok (.real (x + .ofInt s.amount))
    | none => .ok .nan

def UnaryOp.apply (op : UnaryOp) (v : Value) (line : Nat) : Except Fault Value :=
  match op with
  | negate => Scriptlet.negate v line
  | identity => .ok v
  | not => .ok (.boolean !v.truthy)
  | bitNot => complement v line
  | step s => s.apply v line

end Scriptlet
