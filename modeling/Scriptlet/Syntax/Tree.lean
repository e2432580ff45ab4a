import Scriptlet.Syntax.Operator

namespace Scriptlet

inductive Literal
  | null
  | boolean (b : Bool)
  | integer (n : Int64)
  | real (x : Float)
  | text (s : String)
  deriving DecidableEq, Repr

mutual

inductive Expr
  | literal (value : Literal) (line : Nat)
  | name (name : String) (line : Nat)
  | assign (name : String) (value : Expr) (line : Nat)
  | binary (op : BinaryOp) (left right : Expr) (line : Nat)
  | logical (op : LogicalOp) (left right : Expr) (line : Nat)
  | unary (op : UnaryOp) (operand : Expr) (line : Nat)
  | trailing (op : UnaryOp) (operand : Expr) (line : Nat)
  | group (inner : Expr) (line : Nat)
  | call (callee : Expr) (arguments : List (Option Expr)) (line : Nat)
  | read (holder : Expr) (member : Member) (line : Nat)
  | write (holder : Expr) (member : Member) (value : Expr) (line : Nat)
  | array (slots : List (Option Expr)) (line : Nat)
  | object (entries : List (String × Expr)) (line : Nat)
  | function (decl : FunctionDecl)
  | classExpr (decl : ClassDecl)
  | new (call : Expr) (line : Nat)

inductive Member
  | named (name : String)
  | computed (key : Expr)

structure FunctionDecl where
  name : Option String
  params : List String
  body : List Stmt
  line : Nat

structure ClassDecl where
  name : Option String
  members : List ClassMember
  line : Nat

inductive ClassMember
  | field (isStatic : Bool) (name : String) (initial : Option Expr) (line : Nat)
  | method (isStatic : Bool) (decl : FunctionDecl)

inductive Stmt
  | block (body : List Stmt) (line : Nat)
  | declare (name : String) (initial : Option Expr) (line : Nat)
  | function (decl : FunctionDecl)
  | classDecl (decl : ClassDecl)
  | branch (condition : Expr) (yes : Stmt) (no : Option Stmt) (line : Nat)
  | loop (condition : Expr) (body : Stmt) (line : Nat)
  | «return» (value : Option Expr) (line : Nat)
  | expr (expr : Expr) (line : Nat)

end

def FunctionDecl.label (d : FunctionDecl) : String := d.name.getD "anonymous"

def ClassDecl.label (d : ClassDecl) : String := d.name.getD "anonymous"

namespace ClassMember

def name : ClassMember → String
  | field _ name _ _ => name
  | method _ decl => decl.name.getD ""

def isStatic : ClassMember → Bool
  | field isStatic _ _ _ => isStatic
  | method isStatic _ => isStatic

end ClassMember

def Expr.line : Expr → Nat
  | literal _ line | name _ line | assign _ _ line | binary _ _ _ line | logical _ _ _ line
  | unary _ _ line | trailing _ _ line | group _ line | call _ _ line | read _ _ line
  | write _ _ _ line | array _ line | object _ line | new _ line => line
  | function decl => decl.line
  | classExpr decl => decl.line

end Scriptlet
