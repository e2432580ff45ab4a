import Scriptlet.Syntax.Tree

namespace Scriptlet.Stmt

def advanced (body : Stmt) (advance : Option Expr) (line : Nat) : Stmt :=
  match advance with
  | none => body
  | some e => .block [body, .expr e e.line] line

def forLoop (initial : Option Stmt) (condition advance : Option Expr) (body : Stmt) (line : Nat) :
    Stmt :=
  let condition := condition.getD (.literal (.boolean true) line)
  .block (initial.toList ++ [.loop condition (body.advanced advance line) line]) line

def doWhile (body : Stmt) (condition : Expr) (line : Nat) : Stmt :=
  .block [body, .loop condition body line] line

end Scriptlet.Stmt
