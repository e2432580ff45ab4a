import Scriptlet.Proofs.EvaluationRuns
import Scriptlet.Proofs.ExpressionGrammar

namespace Scriptlet

section

variable (limits : Limits)

def combine (op : Operator) (current : Value) (right : Expr) (line : Nat) : Eval Value :=
  match op with
  | .binary op => do binary op current (← eval limits right) line
  | .logical .and => if current.truthy then eval limits right else return current
  | .logical .or => if current.truthy then return current else eval limits right

def combineTarget (holder : Expr) (member : Member) (op : Operator) (right : Expr) (line : Nat) :
    Eval (Value × Value × Value) := do
  let h ← eval limits holder
  let key ← memberKey limits member
  let current ← property h key
  return (h, key, ← combine limits op current right line)

def combineAndStore (holder : Expr) (member : Member) (op : Operator) (right : Expr) (line : Nat) :
    Eval Value := do
  let (h, key, v) ← combineTarget limits holder member op right line
  Eval.change (·.setProperty h key v)
  return v

def evalAndStore (holder : Expr) (member : Member) (value : Expr) : Eval Value := do
  let h ← eval limits holder
  let key ← memberKey limits member
  let v ← eval limits value
  Eval.change (·.setProperty h key v)
  return v

end

variable {limits : Limits}

theorem combineAndStore_error {holder : Expr} {member : Member} {op : Operator} {right : Expr}
    {line : Nat} {m m' : Machine} {e : Halt}
    (h : combineTarget limits holder member op right line m = .error e m') :
    combineAndStore limits holder member op right line m = .error e m' :=
  Eval.bind_error h

theorem combine_logical {op : LogicalOp} {current : Value} {right : Expr} {line : Nat} :
    combine limits (.logical op) current right line =
      if op.decides current then return current else eval limits right := by
  cases op with
  | and => cases h : current.truthy <;> simp [combine, LogicalOp.decides, h]
  | or => rfl

theorem eval_join {op : Operator} {left right : Expr} {line : Nat} :
    eval limits (op.join left right line) =
      eval limits left >>= fun a => combine limits op a right line := by
  cases op with
  | binary op => simp only [Operator.join, eval, combine]
  | logical op => simp only [Operator.join, eval, combine_logical]

theorem eval_write_reads {holder left right : Expr} {member : Member} {op : Operator} {l line : Nat}
    (h : left.reads holder member) :
    eval limits (.write holder member (op.join left right line) l) =
      combineAndStore limits holder member op right line := by
  unfold combineAndStore combineTarget
  rw [eval.eq_def]
  cases op with
  | binary op => simp only [Operator.join, h, if_true, combine, bind_assoc, pure_bind]
  | logical op => simp only [Operator.join, h, if_true, combine_logical, bind_assoc, pure_bind]

theorem eval_write_other {holder value : Expr} {member : Member} {l : Nat}
    (h : ∀ (op : Operator) left right line, value = op.join left right line →
      left.reads holder member = false) :
    eval limits (.write holder member value l) = evalAndStore limits holder member value := by
  unfold evalAndStore
  rw [eval.eq_def]
  cases value with
  | binary op left right line =>
    have hreads := h (.binary op) left right line rfl
    simp only [hreads, Bool.false_eq_true, if_false, eval]
  | logical op left right line =>
    have hreads := h (.logical op) left right line rfl
    simp only [hreads, Bool.false_eq_true, if_false, eval]
  | _ => rfl

end Scriptlet
