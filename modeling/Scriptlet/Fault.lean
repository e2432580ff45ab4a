import Scriptlet.Syntax.Operator
import Scriptlet.SyntaxError
import Scriptlet.Value

namespace Scriptlet

namespace Fault

inductive Cause
  | undefined (name : String)
  | cannotApply (op : ArithmeticOp) (left right : Kind)
  | cannotCompare (op : OrderOp) (left right : Kind)
  | noBits (kind : Kind)
  | notCallable (value : String)
  | newWithoutCall (expr : String)
  | updateTarget (expr : String)
  | overflow
  deriving DecidableEq, Repr

def Cause.describe : Cause → String
  | undefined name => s!"'{name}' is not defined."
  | cannotApply op left right =>
    s!"Type error: cannot apply '{op.spelling}' to {left.name} and {right.name}."
  | cannotCompare op left right =>
    s!"Type error: cannot compare {left.name} and {right.name} with '{op.spelling}'."
  | noBits kind => s!"Type error: {kind.name} has no bitwise form."
  | notCallable value => s!"'{value}' is not callable."
  | newWithoutCall expr => s!"'new' must be applied to a call, found '{expr}'."
  | updateTarget expr => s!"Invalid increment or decrement target '{expr}'."
  | overflow => "Integer overflow."

end Fault

structure Fault where
  cause : Fault.Cause
  line : Nat
  deriving DecidableEq, Repr

def Fault.message (e : Fault) : String := reportAt e.line e.cause.describe

end Scriptlet
