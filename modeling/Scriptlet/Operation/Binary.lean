import Scriptlet.Operation.Arithmetic
import Scriptlet.Operation.Bitwise
import Scriptlet.Operation.Comparison

namespace Scriptlet

def Heap.binary (h : Heap) (op : BinaryOp) (a b : Value) (line : Nat) : Except Fault Value :=
  match op with
  | .arithmetic op => h.arithmetic op a b line
  | .bitwise op => bitwise op a b line
  | .equality op => .ok (h.equality op a b)
  | .order op => order op a b line

end Scriptlet
