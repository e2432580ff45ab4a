import Scriptlet.Evaluation.Evaluate
import Scriptlet.Grammar.Statement
import Scriptlet.Scan

namespace Scriptlet

def runClosure (limits : Limits) (closure : Closure) (args : List Value) : Eval Value := do
  let scope ← Eval.alloc (·.addScope (some closure.scope))
  Eval.change (·.bindParams scope closure.decl.params args)
  match ← Eval.within scope (executeAll limits closure.decl.body .null) with
  | .«return» value => return value
  | .normal _ => return .null

/-- Runs functions with calls nested at most `n` deep and loops of at most `n` rounds. -/
def runUpTo : Nat → Closure → List Value → Eval Value
  | 0, _, _ => throw .exhausted
  | n + 1, closure, args => runClosure ⟨runUpTo n, n⟩ closure args

def Limits.upTo (n : Nat) : Limits := ⟨runUpTo n, n⟩

def runProgram (n : Nat) (program : List Stmt) : Eval Value := do
  return (← executeAll (.upTo n) program .null).value

inductive Failure
  | malformed (e : SyntaxError)
  | fault (e : Fault)
  | exhausted
  deriving DecidableEq, Repr

def Failure.message : Failure → String
  | malformed e => e.message
  | fault e => e.message
  | exhausted => "Too many calls or loop rounds."

def Halt.failure : Halt → Failure
  | fault e => .fault e
  | exhausted => .exhausted

def parse (source : String) : Except SyntaxError (List Stmt) :=
  Scan.tokens source >>= Grammar.program

namespace Machine

def start (clock : Float) : Machine := ⟨.empty, 0, "", clock⟩

def run (m : Machine) (n : Nat) (program : List Stmt) : Except Failure Value × Machine :=
  match runProgram n program m with
  | .ok v m' => (.ok v, m')
  | .error e m' => (.error e.failure, m')

def interpret (m : Machine) (n : Nat) (source : String) : Except Failure Value × Machine :=
  match parse source with
  | .ok program => m.run n program
  | .error e => (.error (.malformed e), m)

end Machine

def Heap.addGlobals (h : Heap) : Heap × Ref :=
  let (h, log) := h.addNative .log
  let (h, warn) := h.addNative .warn
  let (h, console) := h.addObject (.ofNamed [("log", .native log), ("warn", .native warn)])
  let (h, clock) := h.addNative .clock
  let (h, scope) := h.addScope none
  ((h.define scope "console" (.object console)).define scope "clock" (.native clock), scope)

def Machine.withGlobals (m : Machine) : Machine :=
  let (heap, scope) := m.heap.addGlobals
  { m with heap, scope }

end Scriptlet
