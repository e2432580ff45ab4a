import Scriptlet.Number.Shortest

namespace Scriptlet.Number

structure Style where
  nan : String
  infinity : String
  positional : Int → Bool
  wholeMark : String

def Style.value : Style := ⟨"NaN", "Infinity", fun e => e < 21, ""⟩

def Style.literal : Style := ⟨"NaN", "inf", fun e => -4 ≤ e && e < 16, ".0"⟩

def zeros (n : Nat) : String := .ofList (List.replicate n '0')

def Decimal.magnitude (d : Decimal) : Int :=
  (Nat.toDigits 10 d.digits).length - 1 + d.exponent

def Decimal.positional (d : Decimal) (wholeMark : String) : String :=
  let digits := Nat.toDigits 10 d.digits
  if 0 ≤ d.exponent then .ofList digits ++ zeros d.exponent.toNat ++ wholeMark
  else
    let places := (-d.exponent).toNat
    if places < digits.length then
      let whole := digits.length - places
      .ofList (digits.take whole) ++ "." ++ .ofList (digits.drop whole)
    else "0." ++ zeros (places - digits.length) ++ .ofList digits

def Decimal.scientific (d : Decimal) : String :=
  let digits := Nat.toDigits 10 d.digits
  let fraction := if digits.length ≤ 1 then "" else "." ++ .ofList (digits.drop 1)
  .ofList (digits.take 1) ++ fraction ++ "e" ++ d.magnitude.repr

def Style.unsigned (style : Style) (x : Fraction) : String :=
  if x.mantissa = 0 then "0" ++ style.wholeMark
  else
    let d := x.shortest
    if style.positional d.magnitude then d.positional style.wholeMark else d.scientific

def Style.write (style : Style) (x : Float) : String :=
  let sign := if isNegative x then "-" else ""
  match magnitude x with
  | .nan => style.nan
  | .infinite => sign ++ style.infinity
  | .finite v => sign ++ style.unsigned v

end Scriptlet.Number
