namespace Scriptlet.Text

abbrev Ranges := Array (Nat × Nat)

def Ranges.search (table : Ranges) (point : Nat) : Nat → Nat → Nat → Bool
  | 0, _, _ => false
  | n + 1, low, high =>
    if high ≤ low then false
    else
      let middle := (low + high) / 2
      match table[middle]? with
      | none => false
      | some (first, last) =>
        if point < first then search table point n low middle
        else if last < point then search table point n (middle + 1) high
        else true

def Ranges.contains (table : Ranges) (point : Nat) : Bool :=
  table.search point (table.size.log2 + 1) 0 table.size

end Scriptlet.Text
