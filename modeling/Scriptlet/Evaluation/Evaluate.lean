import Scriptlet.Evaluation.Call
import Scriptlet.Operation.Binary
import Scriptlet.Operation.Unary
import Scriptlet.Syntax.Alike
import Scriptlet.Syntax.Printer

namespace Scriptlet

inductive Flow
  | normal (value : Value)
  | «return» (value : Value)
  deriving DecidableEq, Repr

def Flow.value : Flow → Value
  | normal value => value
  | «return» value => value

def LogicalOp.decides (op : LogicalOp) (left : Value) : Bool :=
  match op with
  | and => !left.truthy
  | or => left.truthy

def Expr.reads (e holder : Expr) (member : Member) : Bool :=
  match e with
  | .read h m _ => h.alike holder && m.alike member
  | _ => false

def repeatWhile (condition : Eval Value) (body : Eval Flow) : Nat → Eval Flow
  | 0 => throw .exhausted
  | n + 1 => do
    if (← condition).truthy then
      match ← body with
      | .«return» value => return .«return» value
      | .normal _ => repeatWhile condition body n
    else return .normal .null

def property (holder key : Value) : Eval Value := Eval.ask (·.getProperty holder key)

def binary (op : BinaryOp) (left right : Value) (line : Nat) : Eval Value := do
  Eval.ofExcept (← Eval.ask (·.binary op left right line))

def Literal.value : Literal → Value
  | null => .null
  | boolean b => .boolean b
  | integer n => .integer n
  | real x => .real x
  | text s => .text s

def makeFunction (decl : FunctionDecl) : Eval Value := do
  let scope ← Eval.currentScope
  return .function (← Eval.alloc (·.addFunction ⟨decl, scope⟩))

def bindClass (decl : ClassDecl) (value : Value) : Eval Unit :=
  match decl.name with
  | some name => Eval.define name value
  | none => return

variable (limits : Limits)

mutual

def eval : Expr → Eval Value
  | .literal value _ => return value.value
  | .name name line => Eval.lookup name line
  | .assign name value line => do
    let v ← eval value
    Eval.assign name v line
    return v
  | .binary op left right line => do
    let a ← eval left
    let b ← eval right
    binary op a b line
  | .logical op left right _ => do
    let a ← eval left
    if op.decides a then return a else eval right
  | .unary (.step s) operand line => update s operand line
  | .unary op operand line => do
    let v ← eval operand
    Eval.ofExcept (op.apply v line)
  | .trailing (.step s) operand line => update s operand line
  | .trailing op operand line => do
    let v ← eval operand
    Eval.ofExcept (op.apply v line)
  | .group inner _ => eval inner
  | .call callee arguments line => do
    let f ← eval callee
    let args ← evalSlots arguments
    callValue limits f args line
  | .read holder member _ => do
    let h ← eval holder
    let key ← memberKey member
    property h key
  | .write holder member value _ => do
    let h ← eval holder
    let key ← memberKey member
    -- An operand that reads the property being written uses the holder and key at hand.
    let v ← (match value with
      | .binary op left right line => do
        let a ← (if left.reads holder member then property h key else eval left)
        let b ← eval right
        binary op a b line
      | .logical op left right _ => do
        let a ← (if left.reads holder member then property h key else eval left)
        if op.decides a then return a else eval right
      | other => eval other)
    Eval.change (·.setProperty h key v)
    return v
  | .array slots _ => do
    let values ← evalSlots slots
    return .array (← Eval.alloc (·.addArray values.toArray))
  | .object entries _ => do
    let named ← evalEntries entries
    return .object (← Eval.alloc (·.addObject (.ofNamed named)))
  | .function decl => makeFunction decl
  | .classExpr decl => makeClass decl
  | .new (.call callee arguments line) _ => do
    let f ← eval callee
    let args ← evalSlots arguments
    callValue limits f args line
  | .new other line => Eval.raise (.newWithoutCall other.render) line

def update (s : Step) : Expr → Nat → Eval Value
  | .name name _, line => do
    let current ← Eval.lookup name line
    let next ← Eval.ofExcept (s.apply current line)
    Eval.assign name next line
    return next
  | .read holder member _, line => do
    let h ← eval holder
    let key ← memberKey member
    let current ← property h key
    let next ← Eval.ofExcept (s.apply current line)
    Eval.change (·.setProperty h key next)
    return next
  | .group inner _, line => update s inner line
  | other, line => Eval.raise (.updateTarget other.render) line

def memberKey : Member → Eval Value
  | .named name => return .text name
  | .computed key => eval key

def evalSlots : List (Option Expr) → Eval (List Value)
  | [] => return []
  | none :: rest => return .null :: (← evalSlots rest)
  | some e :: rest => do
    let v ← eval e
    return v :: (← evalSlots rest)

def evalEntries : List (String × Expr) → Eval (List (String × Value))
  | [] => return []
  | (name, e) :: rest => do
    let v ← eval e
    return (name, v) :: (← evalEntries rest)

def evalInitial : Option Expr → Eval Value
  | none => return .null
  | some e => eval e

def classFields : List ClassMember → Eval (List (String × Value))
  | [] => return []
  | .field false name initial _ :: rest => do
    let v ← evalInitial initial
    return (name, v) :: (← classFields rest)
  | _ :: rest => classFields rest

def classStatics (ref scope : Ref) : List ClassMember → Eval Unit
  | [] => return
  | .field true name initial _ :: rest => do
    let v ← evalInitial initial
    Eval.change (·.modifyStatics ref (·.insert (.text name) v))
    classStatics ref scope rest
  | .method true decl :: rest => do
    let method ← Eval.alloc (·.addFunction ⟨decl, scope⟩)
    Eval.change (·.modifyStatics ref (·.insert (.text (decl.name.getD "")) (.function method)))
    classStatics ref scope rest
  | _ :: rest => classStatics ref scope rest

def makeClass : ClassDecl → Eval Value
  | ⟨name, members, line⟩ => do
    let fields ← classFields members
    let current ← Eval.currentScope
    let ref ← Eval.alloc (·.addClass ⟨⟨name, members, line⟩, current, .empty, fields⟩)
    let scope ← Eval.childScope
    Eval.change (·.define scope "this" (.classRef ref))
    classStatics ref scope members
    return .classRef ref

end

mutual

def execute : Stmt → Eval Flow
  | .block body _ => do
    let scope ← Eval.childScope
    Eval.within scope (executeAll body .null)
  | .declare name initial _ => do
    let v ← evalInitial limits initial
    Eval.define name v
    return .normal .null
  | .function decl => do
    let f ← makeFunction decl
    Eval.define decl.label f
    return .normal .null
  | .classDecl decl => do
    let c ← makeClass limits decl
    bindClass decl c
    return .normal .null
  | .branch condition yes no _ => do
    if (← eval limits condition).truthy then execute yes
    else
      match no with
      | some s => execute s
      | none => return .normal .null
  | .loop condition body _ => repeatWhile (eval limits condition) (execute body) limits.rounds
  | .«return» value _ => do return .«return» (← evalInitial limits value)
  | .expr e _ => do return .normal (← eval limits e)

def executeAll : List Stmt → Value → Eval Flow
  | [], last => return .normal last
  | s :: rest, _ => do
    match ← execute s with
    | .normal value => executeAll rest value
    | .«return» value => return .«return» value

end

end Scriptlet
