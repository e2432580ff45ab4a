import Scriptlet.Fault

namespace Scriptlet

/-- The word of a value, or `none` if it makes the result `nan`. -/
def bits (v : Value) (line : Nat) : Except Fault (Option Int64) :=
  match v with
  | .text _ => .ok none
  | .nan => .ok none
  | .integer n => .ok (some n)
  | v =>
    match v.number? with
    | some x => .ok (some (Number.truncate x))
    | none => .error ⟨.noBits v.kind, line⟩

/-- The lowest six bits of the right word say how far to shift; the count is an unsigned word of 32
bits. -/
def shiftCount? (b : Int64) : Option UInt32 :=
  let count := (b &&& 63).toInt
  if 0 ≤ count ∧ count < 0x100000000 then some (.ofNat count.toNat) else none

def wordOperation (op : BitwiseOp) (a b : Int64) : Int64 :=
  let count := ((shiftCount? b).getD 0).toUInt64
  match op with
  | .and => a &&& b
  | .or => a ||| b
  | .xor => a ^^^ b
  | .shiftLeft => a <<< count.toInt64
  | .shiftRight => a >>> count.toInt64
  | .shiftRightZero => (a.toUInt64 >>> count).toInt64

def bitwise (op : BitwiseOp) (a b : Value) (line : Nat) : Except Fault Value := do
  match ← bits a line, ← bits b line with
  | some m, some n => return .integer (wordOperation op m n)
  | _, _ => return .nan

def complement (v : Value) (line : Nat) : Except Fault Value := do
  match ← bits v line with
  | some n => return .integer (~~~n)
  | none => return .nan

end Scriptlet
