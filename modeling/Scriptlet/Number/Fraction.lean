namespace Scriptlet.Number

structure Fraction where
  mantissa : Nat
  exponent : Int
  deriving DecidableEq, Repr

inductive Magnitude
  | nan
  | infinite
  | finite (value : Fraction)
  deriving DecidableEq, Repr

def Fraction.floor (x : Fraction) : Nat :=
  if 0 ≤ x.exponent then x.mantissa <<< x.exponent.toNat
  else x.mantissa >>> (-x.exponent).toNat

def isNegative (x : Float) : Bool :=
  0x8000000000000000 ≤ x.toBits.toNat

def hiddenBit : Nat := 0x10000000000000

def magnitude (x : Float) : Magnitude :=
  let bits := x.toBits.toNat
  let field : Nat := bits / hiddenBit % 2048
  let fraction : Nat := bits % hiddenBit
  if field = 2047 then (if fraction = 0 then .infinite else .nan)
  else if field = 0 then .finite ⟨fraction, -1074⟩
  else .finite ⟨hiddenBit + fraction, field - 1075⟩

def wordBound : Int := 0x8000000000000000

def word? (n : Int) : Option Int64 :=
  if -wordBound ≤ n ∧ n < wordBound then some (.ofInt n) else none

/-- Drops the fraction; what is out of range goes to the nearest bound and NaN to zero. -/
def truncate (x : Float) : Int64 :=
  match magnitude x with
  | .nan => 0
  | .infinite => if isNegative x then .minValue else .maxValue
  | .finite v =>
    if isNegative x then (word? (-v.floor)).getD .minValue else (word? v.floor).getD .maxValue

def widen (n : Int64) : Float := .ofInt n.toInt

def indexOfWord? (n : Int64) : Option Nat :=
  if 0 ≤ n.toInt then some n.toInt.toNat else none

def maxIndex : Nat := 0xFFFFFFFFFFFFFFFF

def indexOfFloat? (x : Float) : Option Nat :=
  match magnitude x with
  | .finite v => if x < 0 then none else some (min v.floor maxIndex)
  | _ => none

theorem toInt_of_word? {n : Int} {w : Int64} (h : word? n = some w) : w.toInt = n := by
  unfold word? at h
  split at h
  · next hn =>
    obtain rfl := Option.some.inj h
    exact Int64.toInt_ofInt_of_le hn.1 hn.2
  · simp at h

end Scriptlet.Number
