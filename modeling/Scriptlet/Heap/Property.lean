import Scriptlet.Heap.Render

namespace Scriptlet

def writeElement (elements : Array Value) (i : Nat) (value : Value) : Array Value :=
  if i < elements.size then elements.setIfInBounds i value
  else (elements ++ Array.replicate (i - elements.size) Value.null).push value

namespace Heap

def key (h : Heap) (opened : List Container) : Value → PropertyKey
  | .null => .null
  | .boolean b => .boolean b
  | .integer n => .integer n
  | .real x => .real x
  | .text s => .text s
  | v => .text (h.renderWithin opened v)

def findProperty (h : Heap) (holder key : Value) : Option Value :=
  match holder with
  | .object ref => (h.object ref).get? (h.key [] key)
  | .array ref => key.index? >>= fun i => (h.array ref)[i]?
  | .classRef ref => (h.statics ref).get? (h.key [] key)
  | _ => none

def getProperty (h : Heap) (holder key : Value) : Value := (h.findProperty holder key).getD .null

def hasProperty (h : Heap) (holder key : Value) : Bool :=
  match holder with
  | .object ref => (h.object ref).contains (h.key [] key)
  | .array ref => key.index?.any (· < (h.array ref).size)
  | .classRef ref => (h.statics ref).contains (h.key [] key)
  | _ => false

/-- While an object is written it counts as open, so a key that contains it shows it as dots. -/
def setProperty (h : Heap) (holder key value : Value) : Heap :=
  match holder with
  | .object ref => h.modifyObject ref (·.insert (h.key [.object ref] key) value)
  | .array ref =>
    match key.index? with
    | some i => h.modifyArray ref (writeElement · i value)
    | none => h
  | .classRef ref => h.modifyStatics ref (·.insert (h.key [] key) value)
  | _ => h

def insertNamed (h : Heap) (holder : Value) (name : String) (value : Value) : Heap :=
  match holder with
  | .object ref => h.modifyObject ref (·.insert (.text name) value)
  | _ => h

def push (h : Heap) (holder value : Value) : Heap :=
  match holder with
  | .array ref => h.modifyArray ref (·.push value)
  | _ => h

def size? (h : Heap) : Value → Option Nat
  | .object ref => some (h.object ref).size
  | .array ref => some (h.array ref).size
  | .classRef ref => some (h.statics ref).size
  | _ => none

def keys? (h : Heap) : Value → Option (List PropertyKey)
  | .object ref => some (h.object ref).keys
  | .classRef ref => some (h.statics ref).keys
  | _ => none

end Heap
end Scriptlet
