import Scriptlet.Syntax.Tree
import Scriptlet.Token

namespace Scriptlet.Symbol

def bitOr? : Symbol → Option BinaryOp
  | or => some (.bitwise .or)
  | _ => none

def bitXor? : Symbol → Option BinaryOp
  | caret => some (.bitwise .xor)
  | _ => none

def bitAnd? : Symbol → Option BinaryOp
  | and => some (.bitwise .and)
  | _ => none

def equality? : Symbol → Option BinaryOp
  | equal => some (.equality .equal)
  | notEqual => some (.equality .notEqual)
  | strictEqual => some (.equality .strictEqual)
  | strictNotEqual => some (.equality .strictNotEqual)
  | _ => none

def relational? : Symbol → Option BinaryOp
  | less => some (.order .less)
  | lessEqual => some (.order .lessEqual)
  | greater => some (.order .greater)
  | greaterEqual => some (.order .greaterEqual)
  | _ => none

def shift? : Symbol → Option BinaryOp
  | shiftLeft => some (.bitwise .shiftLeft)
  | shiftRight => some (.bitwise .shiftRight)
  | shiftRightZero => some (.bitwise .shiftRightZero)
  | _ => none

def additive? : Symbol → Option BinaryOp
  | plus => some (.arithmetic .add)
  | minus => some (.arithmetic .sub)
  | _ => none

def multiplicative? : Symbol → Option BinaryOp
  | star => some (.arithmetic .mul)
  | slash => some (.arithmetic .div)
  | percent => some (.arithmetic .mod)
  | _ => none

def power? : Symbol → Option BinaryOp
  | starStar => some (.arithmetic .pow)
  | _ => none

def logicalOr? : Symbol → Option LogicalOp
  | orOr => some .or
  | _ => none

def logicalAnd? : Symbol → Option LogicalOp
  | andAnd => some .and
  | _ => none

def unary? : Symbol → Option UnaryOp
  | minus => some .negate
  | plus => some .identity
  | bang => some .not
  | tilde => some .bitNot
  | plusPlus => some (.step .increment)
  | minusMinus => some (.step .decrement)
  | _ => none

def trailing? : Symbol → Option UnaryOp
  | plusPlus => some (.step .increment)
  | minusMinus => some (.step .decrement)
  | _ => none

end Scriptlet.Symbol

namespace Scriptlet

inductive AssignOp
  | plain
  | binary (op : BinaryOp)
  | logical (op : LogicalOp)
  deriving DecidableEq, Repr

def Symbol.assignment? : Symbol → Option AssignOp
  | assign => some .plain
  | plusAssign => some (.binary (.arithmetic .add))
  | minusAssign => some (.binary (.arithmetic .sub))
  | starAssign => some (.binary (.arithmetic .mul))
  | slashAssign => some (.binary (.arithmetic .div))
  | percentAssign => some (.binary (.arithmetic .mod))
  | starStarAssign => some (.binary (.arithmetic .pow))
  | andAssign => some (.binary (.bitwise .and))
  | orAssign => some (.binary (.bitwise .or))
  | caretAssign => some (.binary (.bitwise .xor))
  | shiftLeftAssign => some (.binary (.bitwise .shiftLeft))
  | shiftRightAssign => some (.binary (.bitwise .shiftRight))
  | shiftRightZeroAssign => some (.binary (.bitwise .shiftRightZero))
  | andAndAssign => some (.logical .and)
  | orOrAssign => some (.logical .or)
  | _ => none

def AssignOp.value (op : AssignOp) (target right : Expr) (line : Nat) : Expr :=
  match op with
  | .plain => right
  | .binary op => .binary op target right line
  | .logical op => .logical op target right line

inductive Place
  | name (name : String)
  | property (holder : Expr) (member : Member)

def Expr.place? : Expr → Option Place
  | .name n _ => some (.name n)
  | .read holder member _ => some (.property holder member)
  | _ => none

def Place.store (place : Place) (value : Expr) (line : Nat) : Expr :=
  match place with
  | .name n => .assign n value line
  | .property holder member => .write holder member value line

end Scriptlet
