import Scriptlet.Heap.Property
import Scriptlet.Proofs.FloatLiterals

namespace Scriptlet

namespace PropertyKey

open Float.Model (UnpackedFloat)

theorem compare_ne_lt (x : UnpackedFloat) : x.compare x ≠ some .lt := by
  cases hx : x.isNaN with
  | false =>
    rw [FloatLiterals.compare_self hx]
    decide
  | true =>
    cases x with
    | notANumber => decide
    | _ => cases hx

theorem float_lt_irrefl (x : Float) : ¬ x < x := by
  intro h
  have hlt : (x.toModel.unpack.compare x.toModel.unpack == some .lt) = true := of_decide_eq_true h
  exact compare_ne_lt _ (eq_of_beq hlt)

theorem compareFloat_self (x : Float) : compareFloat x x = .eq := by
  unfold compareFloat
  rw [if_neg (float_lt_irrefl x), if_neg (float_lt_irrefl x)]
  split
  · rfl
  · cases x.isNaN <;> rfl

theorem compare_self (key : PropertyKey) : key.compare key = .eq := by
  cases key with
  | null => rfl
  | boolean b => exact (Std.ReflCmp.compare_self : Ord.compare b b = .eq)
  | integer n => exact (Std.ReflCmp.compare_self : Ord.compare n.toInt n.toInt = .eq)
  | real x => exact compareFloat_self x
  | text s => exact (Std.ReflCmp.compare_self : Ord.compare s s = .eq)

theorem compare_text {name : String} {key : PropertyKey} :
    (text name).compare key = .eq ↔ key = .text name := by
  cases key with
  | text s =>
    rw [compare, Std.compare_eq_iff_eq, text.injEq]
    exact eq_comm
  | null | boolean | integer | real =>
    refine ⟨fun h => ?_, fun h => ?_⟩
    · have hgt : Ordering.gt = .eq := h
      cases hgt
    · cases h

end PropertyKey

namespace Table

theorem contains_eq (table : Table) (key : PropertyKey) :
    table.contains key = (table.get? key).isSome := by
  unfold contains get?
  induction table.entries with
  | nil => rfl
  | cons entry rest ih =>
    obtain ⟨k, v⟩ := entry
    rw [List.any_cons, ih, getIn]
    by_cases hk : key.compare k = .eq <;> simp [hk]

open PropertyKey

theorem getIn_insertIn_self (key : PropertyKey) (v : Value) (entries : List (PropertyKey × Value)) :
    getIn key (insertIn key v entries) = some v := by
  induction entries with
  | nil => simp [insertIn, getIn, compare_self]
  | cons entry rest ih =>
    obtain ⟨k, w⟩ := entry
    unfold insertIn
    split
    · simp [getIn, compare_self]
    · next heq => simp [getIn, heq]
    · next hgt => simp [getIn, hgt, ih]

theorem getIn_insertIn_ne {name other : String} (hne : other ≠ name) (v : Value)
    (entries : List (PropertyKey × Value)) :
    getIn (.text other) (insertIn (.text name) v entries) = getIn (.text other) entries := by
  have hother : (PropertyKey.text other).compare (.text name) ≠ .eq := fun h =>
    hne (PropertyKey.text.inj (compare_text.mp h)).symm
  induction entries with
  | nil => simp [insertIn, getIn, hother]
  | cons entry rest ih =>
    obtain ⟨key, w⟩ := entry
    unfold insertIn
    split
    · rw [getIn, if_neg hother]
    · next heq =>
      obtain rfl := compare_text.mp heq
      rw [getIn, if_neg hother, getIn, if_neg hother]
    · rw [getIn, ih, getIn]

theorem exists_entry_of_getIn {key : PropertyKey} {v : Value} {entries : List (PropertyKey × Value)}
    (h : getIn key entries = some v) :
    ∃ entry ∈ entries, key.compare entry.1 = .eq ∧ entry.2 = v := by
  induction entries with
  | nil => cases h
  | cons entry rest ih =>
    unfold getIn at h
    split at h
    · next heq =>
      cases h
      exact ⟨entry, List.mem_cons_self, heq, rfl⟩
    · obtain ⟨e, he, heq⟩ := ih h
      exact ⟨e, List.mem_cons_of_mem _ he, heq⟩

theorem get?_insert_self (table : Table) (key : PropertyKey) (v : Value) :
    (table.insert key v).get? key = some v :=
  getIn_insertIn_self key v table.entries

theorem get?_insert_ne (table : Table) {name other : String} (hne : other ≠ name) (v : Value) :
    (table.insert (.text name) v).get? (.text other) = table.get? (.text other) :=
  getIn_insertIn_ne hne v table.entries

end Table

namespace Heap

variable {h : Heap} {ref : Ref}

theorem object_modifyObject (hr : ref < h.objects.size) (f : Table → Table) :
    (h.modifyObject ref f).object ref = f (h.object ref) := by
  simp [object, modifyObject, Array.getElem?_modify, Array.getElem?_eq_getElem hr]

theorem object_modifyObject_ne {other : Ref} (hne : other ≠ ref) (f : Table → Table) :
    (h.modifyObject ref f).object other = h.object other := by
  simp [object, modifyObject, Array.getElem?_modify, hne.symm]

theorem hasProperty_eq {holder key : Value} :
    h.hasProperty holder key = (h.findProperty holder key).isSome := by
  cases holder with
  | object ref | classRef ref => exact Table.contains_eq _ _
  | array ref =>
    cases hindex : key.index? with
    | none => simp [hasProperty, findProperty, hindex]
    | some i => by_cases hi : i < (h.array ref).size <;> simp [hasProperty, findProperty, hindex, hi]
  | _ => rfl

theorem hasProperty_iff {holder key : Value} :
    h.hasProperty holder key = true ↔ ∃ v, h.findProperty holder key = some v := by
  rw [hasProperty_eq, Option.isSome_iff_exists]

end Heap
end Scriptlet
