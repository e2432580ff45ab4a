import Scriptlet.Heap.Basic
import Scriptlet.Text.Quoted

namespace Scriptlet

def bindIn (name : String) (value : Value) : List (String × Value) → List (String × Value)
  | [] => [(name, value)]
  | (n, v) :: rest => if n = name then (n, value) :: rest else (n, v) :: bindIn name value rest

namespace Scope

def get? (s : Scope) (name : String) : Option Value := s.bindings.lookup name

def binds (s : Scope) (name : String) : Bool := (s.get? name).isSome

def bind (s : Scope) (name : String) (value : Value) : Scope :=
  { s with bindings := bindIn name value s.bindings }

end Scope

namespace Heap

def scope? (h : Heap) (ref : Ref) : Option Scope := h.scopes[ref]?

def chainUpTo (h : Heap) : Nat → Ref → List Ref
  | 0, _ => []
  | n + 1, ref =>
    match h.scope? ref with
    | none => []
    | some s => ref :: s.parent.elim [] (h.chainUpTo n)

/-- A scope and those around it, from the inside out. A parent is older than its children, so no
chain is longer than this. -/
def chain (h : Heap) (ref : Ref) : List Ref := h.chainUpTo (ref + 1) ref

def lookupUpTo (h : Heap) (name : String) : Nat → Ref → Option Value
  | 0, _ => none
  | n + 1, ref =>
    match h.scope? ref with
    | none => none
    | some s =>
      match s.get? name with
      | some v => some v
      | none => s.parent.bind (h.lookupUpTo name n)

def lookup (h : Heap) (ref : Ref) (name : String) : Option Value := h.lookupUpTo name (ref + 1) ref

def define (h : Heap) (ref : Ref) (name : String) (value : Value) : Heap :=
  h.modifyScope ref (·.bind name value)

def assignUpTo (h : Heap) (name : String) (value : Value) : Nat → Ref → Option Heap
  | 0, _ => none
  | n + 1, ref =>
    match h.scope? ref with
    | none => none
    | some s =>
      if s.binds name then some (h.define ref name value)
      else s.parent.bind (h.assignUpTo name value n)

def assign? (h : Heap) (ref : Ref) (name : String) (value : Value) : Option Heap :=
  h.assignUpTo name value (ref + 1) ref

def describeChain (h : Heap) : List Ref → String
  | [] => "None"
  | ref :: outer =>
    let names := ((h.scope? ref).elim [] (·.bindings.map (·.1))).mergeSort (· ≤ ·)
    let shown := ", ".intercalate (names.map Text.Escapes.inspected.quote)
    let parent := match outer with
      | [] => "None"
      | _ :: _ => "Some(" ++ h.describeChain outer ++ ")"
    "Environment \x7b bindings: [" ++ shown ++ "], parent: " ++ parent ++ " \x7d"

def describeScope (h : Heap) (ref : Ref) : String := h.describeChain (h.chain ref)

end Heap
end Scriptlet
