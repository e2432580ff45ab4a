import Scriptlet.Heap.Table
import Scriptlet.Syntax.Tree

/-!
The heap holds everything that has an identity: one array of cells for each kind. Cells are added
and changed but never removed.
-/

namespace Scriptlet

structure Scope where
  parent : Option Ref
  bindings : List (String × Value)
  deriving Repr, Inhabited

structure Closure where
  decl : FunctionDecl
  scope : Ref

inductive Native
  | log | warn | clock
  deriving DecidableEq, Repr

def Native.name : Native → String
  | log => "log"
  | warn => "warn"
  | clock => "clock"

/-- A class value. `fields` holds the instance fields with the defaults computed when the class was
created. -/
structure ClassCell where
  decl : ClassDecl
  scope : Ref
  statics : Table
  fields : List (String × Value)

structure Heap where
  scopes : Array Scope
  functions : Array Closure
  natives : Array Native
  classes : Array ClassCell
  objects : Array Table
  arrays : Array (Array Value)

namespace Heap

def empty : Heap := ⟨#[], #[], #[], #[], #[], #[]⟩

def addScope (h : Heap) (parent : Option Ref) : Heap × Ref :=
  let ref := h.scopes.size
  ({ h with scopes := h.scopes.push ⟨parent, []⟩ }, ref)

def addFunction (h : Heap) (closure : Closure) : Heap × Ref :=
  let ref := h.functions.size
  ({ h with functions := h.functions.push closure }, ref)

def addNative (h : Heap) (native : Native) : Heap × Ref :=
  let ref := h.natives.size
  ({ h with natives := h.natives.push native }, ref)

def addClass (h : Heap) (cell : ClassCell) : Heap × Ref :=
  let ref := h.classes.size
  ({ h with classes := h.classes.push cell }, ref)

def addObject (h : Heap) (table : Table) : Heap × Ref :=
  let ref := h.objects.size
  ({ h with objects := h.objects.push table }, ref)

def addArray (h : Heap) (elements : Array Value) : Heap × Ref :=
  let ref := h.arrays.size
  ({ h with arrays := h.arrays.push elements }, ref)

def object (h : Heap) (ref : Ref) : Table := h.objects[ref]?.getD .empty

def array (h : Heap) (ref : Ref) : Array Value := h.arrays[ref]?.getD #[]

def statics (h : Heap) (ref : Ref) : Table := (h.classes[ref]?.map (·.statics)).getD .empty

def modifyObject (h : Heap) (ref : Ref) (f : Table → Table) : Heap :=
  { h with objects := h.objects.modify ref f }

def modifyArray (h : Heap) (ref : Ref) (f : Array Value → Array Value) : Heap :=
  { h with arrays := h.arrays.modify ref f }

def modifyStatics (h : Heap) (ref : Ref) (f : Table → Table) : Heap :=
  { h with classes := h.classes.modify ref fun c => { c with statics := f c.statics } }

def modifyScope (h : Heap) (ref : Ref) (f : Scope → Scope) : Heap :=
  { h with scopes := h.scopes.modify ref f }

end Heap
end Scriptlet
