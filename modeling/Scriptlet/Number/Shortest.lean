import Scriptlet.Number.Fraction

/-!
The shortest decimal of a float: of the decimals that read back as the float those on the
coarsest decimal grid, and of those the nearest.
-/

namespace Scriptlet.Number

structure Decimal where
  digits : Nat
  exponent : Int
  deriving DecidableEq, Repr

/-- The reals that round to a float, in quarters of its last place. -/
structure Rounding where
  low : Nat
  middle : Nat
  high : Nat
  closed : Bool
  deriving DecidableEq, Repr

def Fraction.rounding (x : Fraction) : Rounding :=
  { low := 4 * x.mantissa - (if x.mantissa = hiddenBit then 1 else 2)
    middle := 4 * x.mantissa
    high := 4 * x.mantissa + 2
    closed := x.mantissa % 2 = 0 }

def Fraction.quarter (x : Fraction) (grid : Int) : Nat × Nat :=
  let q := x.exponent - 2
  (Nat.pow 10 (-grid).toNat <<< q.toNat, Nat.pow 10 grid.toNat <<< (-q).toNat)

def Fraction.onGrid? (x : Fraction) (grid : Int) : Option Nat :=
  let r := x.rounding
  let (num, den) := x.quarter grid
  let within (a b : Nat) : Bool := if r.closed then a ≤ b else a < b
  let below := r.middle * num / den
  let rest := r.middle * num % den
  let downward := within (r.low * num) (below * den)
  let upward := within ((below + 1) * den) (r.high * num)
  match downward, upward with
  | true, true => some (if 2 * rest < den then below else below + 1)
  | true, false => some below
  | false, true => some (below + 1)
  | false, false => none

def Fraction.coarsest (x : Fraction) : Int :=
  (x.exponent + x.mantissa.log2 + 1) * 30103 / 100000 + 2

def Fraction.search (x : Fraction) : Nat → Int → Decimal
  | 0, grid => ⟨x.mantissa, grid⟩
  | n + 1, grid =>
    match x.onGrid? grid with
    | some d => ⟨d, grid⟩
    | none => x.search n (grid - 1)

/-- Seventeen digits always suffice, and the first grid is at most four too coarse. -/
def Fraction.shortest (x : Fraction) : Decimal :=
  x.search 24 x.coarsest

end Scriptlet.Number
