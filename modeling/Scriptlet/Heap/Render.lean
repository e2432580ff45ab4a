import Scriptlet.Heap.Basic
import Scriptlet.Text.Quoted

namespace Scriptlet

inductive Container
  | object (ref : Ref)
  | array (ref : Ref)
  deriving DecidableEq, Repr

namespace Heap

def functionName (h : Heap) (ref : Ref) : String :=
  (h.functions[ref]?.map (·.decl.label)).getD ""

def nativeName (h : Heap) (ref : Ref) : String := (h.natives[ref]?.map (·.name)).getD ""

def className (h : Heap) (ref : Ref) : String := (h.classes[ref]?.map (·.decl.label)).getD ""

/-- Renders at most `n` levels of containers; those in `opened` are being rendered further out. -/
def renderUpTo (h : Heap) : Nat → List Container → Value → String
  | _, _, .null => "null"
  | _, _, .boolean b => if b then "true" else "false"
  | _, _, .integer n => n.toInt.repr
  | _, _, .real x => Number.Style.value.write x
  | _, _, .text s => s
  | _, _, .nan => "NaN"
  | _, _, .function ref => "<fn " ++ h.functionName ref ++ ">"
  | _, _, .native ref => "<native fn " ++ h.nativeName ref ++ ">"
  | _, _, .classRef ref => "<class " ++ h.className ref ++ ">"
  | 0, _, .object _ => "..."
  | 0, _, .array _ => "..."
  | n + 1, opened, .object ref =>
    if opened.contains (.object ref) then "..."
    else
      let entry := fun (key, value) =>
        PropertyKey.render key ++ ":" ++ h.renderUpTo n (.object ref :: opened) value
      "\x7b" ++ ",".intercalate ((h.object ref).entries.map entry) ++ "\x7d"
  | n + 1, opened, .array ref =>
    if opened.contains (.array ref) then "..."
    else
      "[" ++ ",".intercalate ((h.array ref).toList.map (h.renderUpTo n (.array ref :: opened))) ++ "]"

/-- Along any path each container is opened at most once, so this many levels are enough. -/
def levels (h : Heap) : Nat := h.objects.size + h.arrays.size + 1

def renderWithin (h : Heap) (opened : List Container) (v : Value) : String :=
  h.renderUpTo h.levels opened v

def render (h : Heap) (v : Value) : String := h.renderWithin [] v

def looseEquals (h : Heap) (a b : Value) : Bool := h.render a = h.render b

def inspect (h : Heap) (v : Value) : String :=
  match v with
  | .text s => "Str(" ++ Text.Escapes.inspected.quote s ++ ")"
  | .integer n => "Integer(" ++ n.toInt.repr ++ ")"
  | .real x => "Real(" ++ Number.Style.literal.write x ++ ")"
  | .boolean b => "Bool(" ++ (if b then "true" else "false") ++ ")"
  | v => v.kind.name ++ "(" ++ h.render v ++ ")"

end Heap
end Scriptlet
