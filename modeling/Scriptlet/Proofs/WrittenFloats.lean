import Scriptlet.Scan

namespace Scriptlet.Scan

def writesFloat (c : Char) : Bool := c.isDigit || startsWord c || c = '.' || c = '-'

theorem writesFloat_digits {b n : Nat} (hb : 0 < b) (hb' : b ≤ 10) :
    ∀ c ∈ Nat.toDigits b n, writesFloat c := by
  intro c hc
  simp [writesFloat, Nat.isDigit_of_mem_toDigits hb hb' hc]

theorem writesFloat_all {text : String} (h : text.toList.all writesFloat) :
    ∀ c ∈ text.toList, writesFloat c :=
  List.all_eq_true.mp h

theorem writesFloat_positional (d : Number.Decimal) :
    ∀ c ∈ (d.positional ".0").toList, writesFloat c := by
  have hdigits := writesFloat_digits (n := d.digits) (show 0 < 10 by decide) (Nat.le_refl 10)
  have hzeros (n : Nat) : ∀ c ∈ (Number.zeros n).toList, writesFloat c := by
    intro c hc
    rw [Number.zeros, String.toList_ofList] at hc
    obtain rfl := List.eq_of_mem_replicate hc
    rfl
  have hmark : ∀ c ∈ ".0".toList, writesFloat c := writesFloat_all rfl
  have hpoint : ∀ c ∈ ".".toList, writesFloat c := writesFloat_all rfl
  have hzero : ∀ c ∈ "0.".toList, writesFloat c := writesFloat_all rfl
  unfold Number.Decimal.positional
  dsimp only
  split
  · simp only [String.toList_append, String.toList_ofList, List.forall_mem_append]
    exact ⟨⟨hdigits, hzeros _⟩, hmark⟩
  split
  · simp only [String.toList_append, String.toList_ofList, List.forall_mem_append]
    exact ⟨⟨fun c hc => hdigits c (List.mem_of_mem_take hc), hpoint⟩,
      fun c hc => hdigits c (List.mem_of_mem_drop hc)⟩
  · simp only [String.toList_append, String.toList_ofList, List.forall_mem_append]
    exact ⟨⟨hzero, hzeros _⟩, hdigits⟩

theorem writesFloat_repr (n : Int) : ∀ c ∈ n.repr.toList, writesFloat c := by
  have hnat (k : Nat) : ∀ c ∈ k.repr.toList, writesFloat c := by
    rw [Nat.toList_repr]
    exact writesFloat_digits (by decide) (by decide)
  cases n with
  | ofNat k => exact hnat k
  | negSucc k =>
    change ∀ c ∈ ("-" ++ (k + 1).repr).toList, _
    rw [String.toList_append, List.forall_mem_append]
    exact ⟨writesFloat_all rfl, hnat _⟩

theorem writesFloat_scientific (d : Number.Decimal) :
    ∀ c ∈ d.scientific.toList, writesFloat c := by
  have hdigits := writesFloat_digits (n := d.digits) (show 0 < 10 by decide) (Nat.le_refl 10)
  unfold Number.Decimal.scientific
  dsimp only
  simp only [String.toList_append, String.toList_ofList, List.forall_mem_append]
  refine ⟨⟨⟨fun c hc => hdigits c (List.mem_of_mem_take hc), ?_⟩, writesFloat_all rfl⟩, writesFloat_repr _⟩
  split
  · exact List.forall_mem_nil _
  · simp only [String.toList_append, String.toList_ofList, List.forall_mem_append]
    exact ⟨writesFloat_all rfl, fun c hc => hdigits c (List.mem_of_mem_drop hc)⟩

theorem writesFloat_write (x : Float) :
    ∀ c ∈ (Number.Style.literal.write x).toList, writesFloat c := by
  have hsign : ∀ c ∈ (if Number.isNegative x then "-" else "").toList, writesFloat c := by
    split <;> exact writesFloat_all rfl
  unfold Number.Style.write
  dsimp only
  split
  · exact writesFloat_all rfl
  · rw [String.toList_append, List.forall_mem_append]
    exact ⟨hsign, writesFloat_all rfl⟩
  · rw [String.toList_append, List.forall_mem_append]
    refine ⟨hsign, ?_⟩
    unfold Number.Style.unsigned
    dsimp only
    split
    · exact writesFloat_all rfl
    split
    · exact writesFloat_positional _
    · exact writesFloat_scientific _

end Scriptlet.Scan
