import Scriptlet.Number.Fraction

namespace Scriptlet

abbrev Ref := Nat

inductive Value
  | null
  | boolean (b : Bool)
  | integer (n : Int64)
  | real (x : Float)
  | text (s : String)
  | nan
  | function (ref : Ref)
  | native (ref : Ref)
  | classRef (ref : Ref)
  | object (ref : Ref)
  | array (ref : Ref)
  deriving DecidableEq, Repr, Inhabited

inductive Kind
  | null | boolean | integer | float | string | nan | function | classKind | object | array
  deriving DecidableEq, Repr

def Kind.name : Kind → String
  | null => "null"
  | boolean => "boolean"
  | integer => "integer"
  | float => "float"
  | string => "string"
  | nan => "NaN"
  | function => "function"
  | classKind => "class"
  | object => "object"
  | array => "array"

namespace Value

def kind : Value → Kind
  | null => .null
  | boolean _ => .boolean
  | integer _ => .integer
  | real _ => .float
  | text _ => .string
  | nan => .nan
  | function _ => .function
  | native _ => .function
  | classRef _ => .classKind
  | object _ => .object
  | array _ => .array

def truthy : Value → Bool
  | null => false
  | boolean b => b
  | integer n => n ≠ 0
  | real x => x != 0
  | text s => s ≠ ""
  | _ => true

def number? : Value → Option Float
  | null => some 0
  | boolean b => some (if b then 1 else 0)
  | integer n => some (Number.widen n)
  | real x => some x
  | _ => none

/-- Equality without conversion: references by identity, floats by their bits, where all NaN floats
count as one. -/
def strictEquals (a b : Value) : Bool := a = b

def index? : Value → Option Nat
  | integer n => Number.indexOfWord? n
  | real x => Number.indexOfFloat? x
  | _ => none

end Value
end Scriptlet
