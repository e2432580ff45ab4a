import Scriptlet.Fault
import Scriptlet.Heap.Property
import Scriptlet.Heap.Scope

namespace Scriptlet

/-- `clock` is what the host's clock shows, in seconds. It stands still while a program runs: the time
that passes between two readings is not part of the state. -/
structure Machine where
  heap : Heap
  scope : Ref
  output : String
  clock : Float

inductive Halt
  | fault (e : Fault)
  | exhausted
  deriving DecidableEq, Repr

abbrev Eval := EStateM Halt Machine

namespace Eval

def raise {α : Type} (cause : Fault.Cause) (line : Nat) : Eval α := throw (.fault ⟨cause, line⟩)

def ofExcept {α : Type} : Except Fault α → Eval α
  | .ok a => pure a
  | .error e => throw (.fault e)

def ask {α : Type} (f : Heap → α) : Eval α := do return f (← get).heap

def change (f : Heap → Heap) : Eval Unit := modify fun m => { m with heap := f m.heap }

def alloc (f : Heap → Heap × Ref) : Eval Ref :=
  modifyGet fun m => let (heap, ref) := f m.heap; (ref, { m with heap })

def currentScope : Eval Ref := do return (← get).scope

def print (text : String) : Eval Unit := modify fun m => { m with output := m.output ++ text }

def within {α : Type} (scope : Ref) (body : Eval α) : Eval α := fun m =>
  let outer := m.scope
  match body { m with scope } with
  | .ok a n => .ok a { n with scope := outer }
  | .error e n => .error e { n with scope := outer }

def define (name : String) (value : Value) : Eval Unit := do
  let scope ← currentScope
  change (·.define scope name value)

def lookup (name : String) (line : Nat) : Eval Value := do
  let scope ← currentScope
  match ← ask (·.lookup scope name) with
  | some v => return v
  | none => raise (.undefined name) line

def assign (name : String) (value : Value) (line : Nat) : Eval Unit := do
  let scope ← currentScope
  match ← ask (·.assign? scope name value) with
  | some heap => change fun _ => heap
  | none => raise (.undefined name) line

def childScope : Eval Ref := do
  let scope ← currentScope
  alloc (·.addScope (some scope))

end Eval
end Scriptlet
