import Scriptlet.Number.Text
import Scriptlet.Value

namespace Scriptlet

inductive PropertyKey
  | null
  | boolean (b : Bool)
  | integer (n : Int64)
  | real (x : Float)
  | text (s : String)
  deriving DecidableEq, Repr

namespace PropertyKey

/-- NaN equals itself and comes last; the two zeros are equal. -/
def compareFloat (x y : Float) : Ordering :=
  if x < y then .lt
  else if y < x then .gt
  else if x == y then .eq
  else
    match x.isNaN, y.isNaN with
    | false, true => .lt
    | true, false => .gt
    | _, _ => .eq

def rank : PropertyKey → Nat
  | null => 0
  | boolean _ => 1
  | integer _ => 2
  | real _ => 3
  | text _ => 4

def compare : PropertyKey → PropertyKey → Ordering
  | boolean a, boolean b => Ord.compare a b
  | integer a, integer b => Ord.compare a.toInt b.toInt
  | real a, real b => compareFloat a b
  | text a, text b => Ord.compare a b
  | a, b => Ord.compare a.rank b.rank

def render : PropertyKey → String
  | null => "null"
  | boolean b => if b then "true" else "false"
  | integer n => n.toInt.repr
  | real x => Number.Style.value.write x
  | text s => s

end PropertyKey

structure Table where
  entries : List (PropertyKey × Value)
  deriving Repr, Inhabited

namespace Table

def empty : Table := ⟨[]⟩

def getIn (key : PropertyKey) : List (PropertyKey × Value) → Option Value
  | [] => none
  | (k, v) :: rest => if key.compare k = .eq then some v else getIn key rest

def get? (table : Table) (key : PropertyKey) : Option Value := getIn key table.entries

def insertIn (key : PropertyKey) (value : Value) :
    List (PropertyKey × Value) → List (PropertyKey × Value)
  | [] => [(key, value)]
  | (k, v) :: rest =>
    match key.compare k with
    | .lt => (key, value) :: (k, v) :: rest
    | .eq => (k, value) :: rest
    | .gt => (k, v) :: insertIn key value rest

def insert (table : Table) (key : PropertyKey) (value : Value) : Table :=
  ⟨insertIn key value table.entries⟩

def contains (table : Table) (key : PropertyKey) : Bool :=
  table.entries.any fun (k, _) => key.compare k = .eq

def size (table : Table) : Nat := table.entries.length

def keys (table : Table) : List PropertyKey := table.entries.map (·.1)

end Table
end Scriptlet
