import Scriptlet.Evaluation.Machine

namespace Scriptlet

/-- What the syntax of a program does not bound: how functions are run, and for how many rounds a
loop may go on. -/
structure Limits where
  run : Closure → List Value → Eval Value
  rounds : Nat

def Heap.bindParams (h : Heap) (scope : Ref) : List String → List Value → Heap
  | [], _ => h
  | p :: ps, args => (h.define scope p (args.head?.getD .null)).bindParams scope ps args.tail

def logLine (args : List Value) : Eval Value := do
  let texts ← Eval.ask fun h => args.map h.render
  Eval.print (" ".intercalate texts ++ "\n")
  return .null

def Native.run (native : Native) (args : List Value) : Eval Value :=
  match native with
  | log => logLine args
  | warn => logLine args
  | clock => do return .real (← get).clock

def constructorName : String := "constructor"

def instanceMethods (members : List ClassMember) : List (String × FunctionDecl) :=
  members.filterMap fun member =>
    match member with
    | .method false decl => some (member.name, decl)
    | _ => none

def findConstructor? (members : List ClassMember) : Option FunctionDecl :=
  ((instanceMethods members).reverse.find? (·.1 = constructorName)).map (·.2)

def bindMethod (ref scope : Ref) (name : String) (decl : FunctionDecl) : Eval Unit :=
  if name = constructorName then return
  else do
    let method ← Eval.alloc (·.addFunction ⟨decl, scope⟩)
    Eval.change (·.insertNamed (.object ref) name (.function method))

def bindMethods (ref scope : Ref) : List (String × FunctionDecl) → Eval Unit
  | [] => return
  | (name, decl) :: rest => do
    bindMethod ref scope name decl
    bindMethods ref scope rest

def construct (limits : Limits) (scope : Ref) (members : List ClassMember) (args : List Value) :
    Eval Unit :=
  match findConstructor? members with
  | some decl => do let _ ← limits.run ⟨decl, scope⟩ args
  | none => return

def Table.ofNamed (entries : List (String × Value)) : Table :=
  entries.foldl (fun table (name, value) => table.insert (.text name) value) .empty

def instantiate (limits : Limits) (cell : ClassCell) (args : List Value) : Eval Value := do
  let ref ← Eval.alloc (·.addObject (.ofNamed cell.fields))
  let scope ← Eval.alloc (·.addScope (some cell.scope))
  Eval.change (·.define scope "this" (.object ref))
  bindMethods ref scope (instanceMethods cell.decl.members)
  construct limits scope cell.decl.members args
  return .object ref

def notCallable (callee : Value) (line : Nat) : Eval Value := do
  Eval.raise (.notCallable (← Eval.ask (·.render callee))) line

def callValue (limits : Limits) (callee : Value) (args : List Value) (line : Nat) : Eval Value := do
  match callee with
  | .function ref =>
    match ← Eval.ask (·.functions[ref]?) with
    | some closure => limits.run closure args
    | none => notCallable callee line
  | .native ref =>
    match ← Eval.ask (·.natives[ref]?) with
    | some native => native.run args
    | none => notCallable callee line
  | .classRef ref =>
    match ← Eval.ask (·.classes[ref]?) with
    | some cell => instantiate limits cell args
    | none => notCallable callee line
  | _ => notCallable callee line

end Scriptlet
