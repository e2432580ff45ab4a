import Mathlib
import Scriptlet.Proofs.FloatMagnitudes
import Scriptlet.Proofs.PropertyTables

namespace Scriptlet

/-- The keys for the slot `i`: the integer itself and the floats with that integer part. -/
def Value.StandsFor (key : Value) (i : Nat) : Prop :=
  match key with
  | .integer n => n.toInt = i
  | .real x => x.isFinite = true ∧ 0 ≤ Number.exact x ∧ i = min ⌊Number.exact x⌋₊ Number.maxIndex
  | _ => False

theorem Value.index?_eq_some {key : Value} {i : Nat} : key.index? = some i ↔ key.StandsFor i := by
  cases key with
  | integer n =>
    change (if 0 ≤ n.toInt then some n.toInt.toNat else none) = some i ↔ n.toInt = i
    by_cases hn : 0 ≤ n.toInt
    · rw [if_pos hn, Option.some.injEq]
      omega
    · rw [if_neg hn]
      refine ⟨nofun, fun h => ?_⟩
      omega
  | real x => exact Number.indexOfFloat?_eq_some
  | _ => exact ⟨nofun, nofun⟩

theorem Value.index?_eq_none {key : Value} (hk : ∀ i, ¬ key.StandsFor i) : key.index? = none :=
  Option.eq_none_iff_forall_ne_some.mpr fun i hi => hk i (index?_eq_some.mp hi)

section

variable (elements : Array Value) (i : Nat) (v : Value)

theorem size_padded {i : Nat} (hi : ¬ i < elements.size) :
    (elements ++ Array.replicate (i - elements.size) Value.null).size = i := by
  rw [Array.size_append, Array.size_replicate]
  omega

theorem size_writeElement : (writeElement elements i v).size = max elements.size (i + 1) := by
  unfold writeElement
  split
  · rw [Array.size_setIfInBounds]
    omega
  · next hi =>
    rw [Array.size_push, size_padded elements hi]
    omega

theorem getElem?_writeElement_self : (writeElement elements i v)[i]? = some v := by
  unfold writeElement
  split
  · next hi => rw [Array.getElem?_setIfInBounds_self, if_pos hi]
  · next hi => rw [Array.getElem?_push, size_padded elements hi, if_pos rfl]

theorem getElem?_writeElement_old {j : Nat} (hj : j < elements.size) (hne : j ≠ i) :
    (writeElement elements i v)[j]? = elements[j]? := by
  unfold writeElement
  split
  · rw [Array.getElem?_setIfInBounds_ne hne.symm]
  · next hi =>
    rw [Array.getElem?_push, size_padded elements hi, if_neg hne, Array.getElem?_append_left hj]

theorem getElem?_writeElement_gap {j : Nat} (hj : elements.size ≤ j) (hlt : j < i) :
    (writeElement elements i v)[j]? = some .null := by
  have hi : ¬ i < elements.size := by omega
  have hslot : j - elements.size < i - elements.size := by omega
  rw [writeElement, if_neg hi, Array.getElem?_push, size_padded elements hi, if_neg hlt.ne,
    Array.getElem?_append_right hj, Array.getElem?_replicate, if_pos hslot]

end

inductive ArrayWrite
  | set (key v : Value)
  | push (v : Value)

namespace Heap

def writeArray (h : Heap) (ref : Ref) : ArrayWrite → Heap
  | .set key v => h.setProperty (.array ref) key v
  | .push v => h.push (.array ref) v

def writeArrays (h : Heap) (writes : List (Ref × ArrayWrite)) : Heap :=
  writes.foldl (fun h w => h.writeArray w.1 w.2) h

structure ArraysGrow (written : List Ref) (h h' : Heap) : Prop where
  elsewhere : h' = { h with arrays := h'.arrays }
  count : h'.arrays.size = h.arrays.size
  others : ∀ ref ∉ written, h'.array ref = h.array ref
  longer : ∀ ref, (h.array ref).size ≤ (h'.array ref).size

variable {h h' h'' : Heap} {ref : Ref} {key v : Value} {i : Nat}

theorem array_modifyArray (hr : ref < h.arrays.size) (f : Array Value → Array Value) :
    (h.modifyArray ref f).array ref = f (h.array ref) := by
  simp [array, modifyArray, Array.getElem?_modify, Array.getElem?_eq_getElem hr]

theorem array_modifyArray_ne {other : Ref} (hne : other ≠ ref) (f : Array Value → Array Value) :
    (h.modifyArray ref f).array other = h.array other := by
  simp [array, modifyArray, Array.getElem?_modify, hne.symm]

theorem setProperty_array (hk : key.StandsFor i) :
    h.setProperty (.array ref) key v = h.modifyArray ref (writeElement · i v) := by
  simp only [setProperty, Value.index?_eq_some.mpr hk]

theorem setProperty_array_ignored (hk : ∀ i, ¬ key.StandsFor i) :
    h.setProperty (.array ref) key v = h := by
  simp only [setProperty, Value.index?_eq_none hk]

theorem findProperty_array : h.findProperty (.array ref) key = some v ↔
    ∃ i, key.StandsFor i ∧ (h.array ref)[i]? = some v := by
  change (key.index? >>= fun i => (h.array ref)[i]?) = some v ↔ _
  simp only [Option.bind_eq_bind, Option.bind_eq_some_iff, Value.index?_eq_some]

theorem findProperty_array_missing (hk : ∀ i, ¬ key.StandsFor i) :
    h.findProperty (.array ref) key = none := by
  apply Option.eq_none_iff_forall_ne_some.mpr
  intro v hv
  obtain ⟨i, hi, -⟩ := findProperty_array.mp hv
  exact hk i hi

theorem hasProperty_array : h.hasProperty (.array ref) key = true ↔
    ∃ i, key.StandsFor i ∧ i < (h.array ref).size := by
  rw [hasProperty_eq, Option.isSome_iff_exists]
  simp only [findProperty_array]
  constructor
  · rintro ⟨v, i, hk, hv⟩
    exact ⟨i, hk, (Array.getElem?_eq_some_iff.mp hv).1⟩
  · rintro ⟨i, hk, hi⟩
    exact ⟨_, i, hk, Array.getElem?_eq_getElem hi⟩

namespace ArraysGrow

theorem refl (h : Heap) (written : List Ref) : ArraysGrow written h h where
  elsewhere := rfl
  count := rfl
  others _ _ := rfl
  longer _ := le_rfl

theorem trans {written written' : List Ref} (first : ArraysGrow written h h')
    (second : ArraysGrow written' h' h'') : ArraysGrow (written ++ written') h h'' where
  elsewhere := by
    rw [second.elsewhere, first.elsewhere]
  count := second.count.trans first.count
  others ref hr := by
    obtain ⟨hfirst, hsecond⟩ := not_or.mp (mt List.mem_append.mpr hr)
    exact (second.others ref hsecond).trans (first.others ref hfirst)
  longer ref := (first.longer ref).trans (second.longer ref)

theorem modifyArray {f : Array Value → Array Value}
    (hf : ∀ elements, elements.size ≤ (f elements).size) : ArraysGrow [ref] h (h.modifyArray ref f) where
  elsewhere := rfl
  count := Array.size_modify
  others other hother := array_modifyArray_ne (mt List.mem_singleton.mpr hother) f
  longer other := by
    by_cases hr : other = ref
    · subst hr
      by_cases hlt : other < h.arrays.size
      · rw [array_modifyArray hlt]
        exact hf _
      · simp [array, Heap.modifyArray, hlt]
    · rw [array_modifyArray_ne hr]

end ArraysGrow

theorem writeArray_grows (h : Heap) (ref : Ref) (w : ArrayWrite) :
    ArraysGrow [ref] h (h.writeArray ref w) := by
  cases w with
  | set key v =>
    rw [writeArray]
    by_cases hk : ∃ i, key.StandsFor i
    · obtain ⟨i, hi⟩ := hk
      rw [setProperty_array hi]
      apply ArraysGrow.modifyArray
      intro elements
      rw [size_writeElement]
      exact le_max_left _ _
    · rw [setProperty_array_ignored (not_exists.mp hk)]
      exact .refl h [ref]
  | push v =>
    apply ArraysGrow.modifyArray
    intro elements
    rw [Array.size_push]
    exact Nat.le_succ _

theorem writeArrays_grows (h : Heap) (writes : List (Ref × ArrayWrite)) :
    ArraysGrow (writes.map (·.1)) h (h.writeArrays writes) := by
  induction writes generalizing h with
  | nil => exact .refl h []
  | cons w writes ih => exact (writeArray_grows h w.1 w.2).trans (ih _)

end Heap

/-- After a write under a key for the slot `i` an array has that slot, with the value that every key
for it reads, and any new slot before it is null; everything else is as it was. Another key writes and
finds nothing. After every run of writes a key is there if its slot is, and what is there is found. -/
theorem array_write (h : Heap) {ref : Ref} (href : ref < h.arrays.size) (key value : Value) :
    let h' := h.setProperty (.array ref) key value
    let elements := h.array ref
    let elements' := h'.array ref
    (∀ i, key.StandsFor i →
      h'.size? (.array ref) = some (max elements.size (i + 1)) ∧
      elements'[i]? = some value ∧
      (∀ j < elements.size, j ≠ i → elements'[j]? = elements[j]?) ∧
      (∀ j < elements'.size, elements.size ≤ j → j ≠ i → elements'[j]? = some .null) ∧
      ∀ k : Value, k.StandsFor i → h'.findProperty (.array ref) k = some value) ∧
    ((∀ i, ¬ key.StandsFor i) → h' = h ∧ h.findProperty (.array ref) key = none ∧
      h.hasProperty (.array ref) key = false) ∧
    h.ArraysGrow [ref] h' ∧
    ∀ writes : List (Ref × ArrayWrite),
      let after := h.writeArrays writes
      h.ArraysGrow (writes.map (·.1)) after ∧ ∀ (r : Ref) (k : Value),
        (after.hasProperty (.array r) k = true ↔ ∃ i, k.StandsFor i ∧ i < (after.array r).size) ∧
        (after.hasProperty (.array r) k = true ↔ ∃ v, after.findProperty (.array r) k = some v) := by
  intro h' elements elements'
  refine ⟨fun i hi => ?_, fun hk => ?_, h.writeArray_grows ref (.set key value),
    fun writes => ⟨h.writeArrays_grows writes, fun r k => ⟨Heap.hasProperty_array,
      Heap.hasProperty_iff⟩⟩⟩
  · have harray : elements' = writeElement elements i value := by
      simp only [elements', h', Heap.setProperty_array hi, Heap.array_modifyArray href, elements]
    have hself : elements'[i]? = some value := harray ▸ getElem?_writeElement_self elements i value
    have hsize : elements'.size = max elements.size (i + 1) := by rw [harray, size_writeElement]
    refine ⟨congrArg some hsize, hself, fun j hj hne => ?_, fun j hj hold hne => ?_, fun k hk => ?_⟩
    · rw [harray, getElem?_writeElement_old elements i value hj hne]
    · rw [harray]
      apply getElem?_writeElement_gap elements i value hold
      omega
    · exact Heap.findProperty_array.mpr ⟨i, hk, hself⟩
  · have hfind : h.findProperty (.array ref) key = none := Heap.findProperty_array_missing hk
    refine ⟨Heap.setProperty_array_ignored hk, hfind, ?_⟩
    rw [Heap.hasProperty_eq, hfind]
    rfl

theorem array_write_gap :
    let h := (Heap.empty.addArray #[.boolean true]).1
    let h' := h.setProperty (.array 0) (.integer 2) (.text "x")
    0 < h.arrays.size ∧ (Value.integer 2).StandsFor 2 ∧ (Value.real 2.5).StandsFor 2 ∧
      (∀ i, ¬ (Value.text "2").StandsFor i) ∧
      h'.size? (.array 0) = some 3 ∧ (h'.array 0)[0]? = some (.boolean true) ∧
      (h'.array 0)[1]? = some .null ∧
      h'.findProperty (.array 0) (.real 2.5) = some (.text "x") ∧
      h.setProperty (.array 0) (.text "2") .null = h := by
  intro h h'
  have href : 0 < h.arrays.size := by decide
  have hkey : (Value.integer 2).StandsFor 2 := rfl
  have hfloat : (Value.real 2.5).StandsFor 2 := Value.index?_eq_some.mp rfl
  have htext : ∀ i, ¬ (Value.text "2").StandsFor i := fun _ => id
  obtain ⟨hwrite, -, -, -⟩ := array_write h href (.integer 2) (.text "x")
  obtain ⟨-, hignored, -, -⟩ := array_write h href (.text "2") .null
  obtain ⟨hsize, -, hold, hgap, hsame⟩ := hwrite 2 hkey
  exact ⟨href, hkey, hfloat, htext, hsize, hold 0 (by decide) (by decide),
    hgap 1 (by decide) (by decide) (by decide), hsame _ hfloat, (hignored htext).1⟩

end Scriptlet
