import Mathlib
import Scriptlet.Heap.Property
import Scriptlet.Proofs.KeyOrder

/-!
Objects as sorted maps. The entries of an object stand in the order of their keys, whatever the order
they were written in, and each key has the value that was written last.
-/

namespace Scriptlet

def PropertyKey.toValue : PropertyKey → Value
  | null => .null
  | boolean b => .boolean b
  | integer n => .integer n
  | real x => .real x
  | text s => .text s

inductive ObjectWrite
  | set (key : PropertyKey) (v : Value)
  | insert (name : String) (v : Value)

namespace ObjectWrite

def key : ObjectWrite → PropertyKey
  | set key _ => key
  | insert name _ => .text name

def value : ObjectWrite → Value
  | set _ v => v
  | insert _ v => v

end ObjectWrite

def Heap.writeObject (h : Heap) (ref : Ref) : ObjectWrite → Heap
  | .set key v => h.setProperty (.object ref) key.toValue v
  | .insert name v => h.insertNamed (.object ref) name v

def Heap.writeObjects (h : Heap) (ref : Ref) (writes : List ObjectWrite) : Heap :=
  writes.foldl (fun h w => h.writeObject ref w) h

def lastWritten (k : PropertyKey) (writes : List ObjectWrite) : Option Value :=
  ((writes.filter fun w => k.compare w.key = .eq).getLast?).map (·.value)

def countDistinct : List PropertyKey → Nat
  | [] => 0
  | k :: ks => countDistinct ks + if ∃ k' ∈ ks, k.compare k' = .eq then 0 else 1

namespace Table

def SortedEntries (entries : List (PropertyKey × Value)) : Prop :=
  entries.Pairwise fun a b => a.1.compare b.1 = .lt

section

variable {key k : PropertyKey} {v w : Value} {entries : List (PropertyKey × Value)}

theorem compare_congr_left {a b : PropertyKey} (c : PropertyKey) (hab : a.compare b = .eq) :
    a.compare c = b.compare c := Std.TransCmp.congr_left hab

theorem compare_symm {a b : PropertyKey} (hab : a.compare b = .eq) : b.compare a = .eq :=
  Std.OrientedCmp.eq_symm hab

theorem mem_insertIn {entry : PropertyKey × Value} (h : entry ∈ insertIn key v entries) :
    entry.1 = key ∨ ∃ old ∈ entries, entry.1 = old.1 := by
  induction entries with
  | nil =>
    obtain rfl := List.mem_singleton.mp h
    exact .inl rfl
  | cons old rest ih =>
    obtain ⟨k, w⟩ := old
    unfold insertIn at h
    split at h
    · rcases List.mem_cons.mp h with rfl | h
      · exact .inl rfl
      · exact .inr ⟨entry, h, rfl⟩
    · rcases List.mem_cons.mp h with rfl | h
      · exact .inr ⟨(k, w), List.mem_cons_self, rfl⟩
      · exact .inr ⟨entry, List.mem_cons_of_mem _ h, rfl⟩
    · rcases List.mem_cons.mp h with rfl | h
      · exact .inr ⟨(k, w), List.mem_cons_self, rfl⟩
      · rcases ih h with hkey | ⟨old, hold, heq⟩
        · exact .inl hkey
        · exact .inr ⟨old, List.mem_cons_of_mem _ hold, heq⟩

theorem SortedEntries.insertIn (hs : SortedEntries entries) (key : PropertyKey) (v : Value) :
    SortedEntries (insertIn key v entries) := by
  induction entries with
  | nil => exact List.pairwise_singleton _ _
  | cons old rest ih =>
    obtain ⟨k, w⟩ := old
    obtain ⟨hk, hrest⟩ := List.pairwise_cons.mp hs
    unfold Table.insertIn
    split
    · next hlt =>
      apply List.pairwise_cons.mpr
      refine ⟨fun entry hentry => ?_, hs⟩
      rcases List.mem_cons.mp hentry with rfl | hentry
      · exact hlt
      · exact Std.TransCmp.lt_trans hlt (hk entry hentry)
    · exact List.pairwise_cons.mpr ⟨hk, hrest⟩
    · next hgt =>
      have hlt : k.compare key = .lt := Std.OrientedCmp.lt_of_gt hgt
      apply List.pairwise_cons.mpr
      refine ⟨fun entry hentry => ?_, ih hrest⟩
      rcases mem_insertIn hentry with heq | ⟨old, hold, heq⟩
      · exact heq ▸ hlt
      · exact heq ▸ hk old hold

theorem getIn_insertIn (k key : PropertyKey) (v : Value) (entries : List (PropertyKey × Value)) :
    getIn k (insertIn key v entries) = if k.compare key = .eq then some v else getIn k entries := by
  induction entries with
  | nil => rfl
  | cons old rest ih =>
    obtain ⟨key', w⟩ := old
    unfold insertIn
    split
    · rfl
    · next heq =>
      have hsame : k.compare key = k.compare key' := Std.TransCmp.congr_right heq
      rw [getIn, getIn, hsame]
      split <;> rfl
    · next hgt =>
      rw [getIn, ih, getIn]
      by_cases hk : k.compare key = .eq
      · have hne : k.compare key' ≠ .eq := by
          rw [compare_congr_left key' hk, hgt]
          decide
        rw [if_neg hne]
        simp [hk]
      · simp [hk]

theorem getIn_of_lt (hs : ∀ entry ∈ entries, k.compare entry.1 = .lt) : getIn k entries = none := by
  induction entries with
  | nil => rfl
  | cons old rest ih =>
    obtain ⟨key', w⟩ := old
    have hlt : k.compare key' = .lt := hs _ List.mem_cons_self
    rw [getIn, hlt, if_neg (by decide)]
    exact ih fun entry hentry => hs entry (List.mem_cons_of_mem _ hentry)

theorem length_insertIn (hs : SortedEntries entries) (key : PropertyKey) (v : Value) :
    (insertIn key v entries).length =
      entries.length + if (getIn key entries).isSome then 0 else 1 := by
  induction entries with
  | nil => rfl
  | cons old rest ih =>
    obtain ⟨k, w⟩ := old
    obtain ⟨hk, hrest⟩ := List.pairwise_cons.mp hs
    unfold insertIn
    split
    · next hlt =>
      have hnone : getIn key ((k, w) :: rest) = none := by
        apply getIn_of_lt
        intro entry hentry
        rcases List.mem_cons.mp hentry with rfl | hentry
        · exact hlt
        · exact Std.TransCmp.lt_trans hlt (hk entry hentry)
      rw [hnone]
      rfl
    · next heq =>
      rw [getIn, if_pos heq]
      rfl
    · next hgt =>
      have hne : key.compare k ≠ .eq := by simp [hgt]
      rw [getIn, if_neg hne, List.length_cons, List.length_cons, ih hrest, Nat.add_right_comm]

theorem insertIn_of_lt (h : key.compare k = .lt) (v w : Value) (rest : List (PropertyKey × Value)) :
    insertIn key v ((k, w) :: rest) = (key, v) :: (k, w) :: rest := by
  simp [insertIn, h]

theorem insertIn_of_eq (h : key.compare k = .eq) (v w : Value) (rest : List (PropertyKey × Value)) :
    insertIn key v ((k, w) :: rest) = (k, v) :: rest := by
  simp [insertIn, h]

theorem insertIn_of_gt (h : key.compare k = .gt) (v w : Value) (rest : List (PropertyKey × Value)) :
    insertIn key v ((k, w) :: rest) = (k, w) :: insertIn key v rest := by
  simp [insertIn, h]

theorem insertIn_comm_of_lt {a b : PropertyKey} (hab : a.compare b = .lt) (v w : Value)
    (entries : List (PropertyKey × Value)) :
    insertIn a v (insertIn b w entries) = insertIn b w (insertIn a v entries) := by
  have hba : b.compare a = .gt := Std.OrientedCmp.gt_of_lt hab
  induction entries with
  | nil => rw [insertIn, insertIn_of_lt hab, insertIn, insertIn_of_gt hba, insertIn]
  | cons old rest ih =>
    obtain ⟨k, u⟩ := old
    cases hb : b.compare k with
    | lt =>
      have ha : a.compare k = .lt := Std.TransCmp.lt_trans hab hb
      rw [insertIn_of_lt hb, insertIn_of_lt hab, insertIn_of_lt ha, insertIn_of_gt hba,
        insertIn_of_lt hb]
    | eq =>
      have ha : a.compare k = .lt := Std.TransCmp.lt_of_lt_of_eq hab hb
      rw [insertIn_of_eq hb, insertIn_of_lt ha, insertIn_of_lt ha, insertIn_of_gt hba,
        insertIn_of_eq hb]
    | gt =>
      rw [insertIn_of_gt hb]
      cases ha : a.compare k with
      | lt => rw [insertIn_of_lt ha, insertIn_of_lt ha, insertIn_of_gt hba, insertIn_of_gt hb]
      | eq => rw [insertIn_of_eq ha, insertIn_of_eq ha, insertIn_of_gt hb]
      | gt => rw [insertIn_of_gt ha, insertIn_of_gt ha, insertIn_of_gt hb, ih]

theorem insertIn_comm {a b : PropertyKey} (hab : a.compare b ≠ .eq) (v w : Value)
    (entries : List (PropertyKey × Value)) :
    insertIn a v (insertIn b w entries) = insertIn b w (insertIn a v entries) := by
  cases h : a.compare b with
  | lt => exact insertIn_comm_of_lt h v w entries
  | eq => exact absurd h hab
  | gt => exact (insertIn_comm_of_lt (Std.OrientedCmp.lt_of_gt h) w v entries).symm

end

section

variable (writes : List ObjectWrite) (w : ObjectWrite) (k : PropertyKey)

def writeAll (table : Table) (writes : List ObjectWrite) : Table :=
  writes.foldl (fun t w => t.insert w.key w.value) table

theorem writeAll_append (t : Table) :
    t.writeAll (writes ++ [w]) = (t.writeAll writes).insert w.key w.value := by
  simp [writeAll]

theorem sorted_writeAll : SortedEntries (empty.writeAll writes).entries := by
  induction writes using List.reverseRecOn with
  | nil => exact .nil
  | append_singleton writes w ih =>
    rw [writeAll_append]
    exact ih.insertIn w.key w.value

theorem lastWritten_append : lastWritten k (writes ++ [w]) =
    if k.compare w.key = .eq then some w.value else lastWritten k writes := by
  unfold lastWritten
  by_cases hk : k.compare w.key = .eq
  · simp [hk]
  · simp [hk]

theorem get?_writeAll : (empty.writeAll writes).get? k = lastWritten k writes := by
  induction writes using List.reverseRecOn with
  | nil => rfl
  | append_singleton writes w ih =>
    rw [writeAll_append, lastWritten_append, ← ih]
    exact getIn_insertIn k w.key w.value _

theorem lastWritten_isSome : (lastWritten k writes).isSome = true ↔
    ∃ w ∈ writes, k.compare w.key = .eq := by
  simp [lastWritten]

theorem countDistinct_append (ks : List PropertyKey) : countDistinct (ks ++ [k]) =
    countDistinct ks + if ∃ k' ∈ ks, k.compare k' = .eq then 0 else 1 := by
  induction ks with
  | nil => simp [countDistinct]
  | cons x ks ih =>
    rw [List.cons_append, countDistinct, countDistinct, ih]
    by_cases hx : x.compare k = .eq
    · -- What equals the first key equals the last one too, so one of the two counts either way.
      have hiff : (∃ k' ∈ ks, x.compare k' = .eq) ↔ ∃ k' ∈ ks, k.compare k' = .eq := by
        simp only [compare_congr_left _ hx]
      simp [hx, compare_symm hx, hiff]
    · have hx' : k.compare x ≠ .eq := mt compare_symm hx
      simp [hx, hx', Nat.add_right_comm]

theorem size_writeAll : (empty.writeAll writes).size = countDistinct (writes.map (·.key)) := by
  induction writes using List.reverseRecOn with
  | nil => rfl
  | append_singleton writes w ih =>
    have hfound : ((empty.writeAll writes).get? w.key).isSome = true ↔
        ∃ k ∈ writes.map (·.key), w.key.compare k = .eq := by
      rw [get?_writeAll, lastWritten_isSome]
      simp
    rw [writeAll_append, List.map_append, List.map_singleton, countDistinct_append, ← ih]
    have hlength := length_insertIn (sorted_writeAll writes) w.key w.value
    simp only [← hfound]
    exact hlength

theorem writeAll_perm (t : Table) {writes writes' : List ObjectWrite} (hp : writes.Perm writes')
    (hd : writes.Pairwise fun a b => a.key.compare b.key ≠ .eq) :
    t.writeAll writes = t.writeAll writes' := by
  have hsymm : Std.Symm fun a b : ObjectWrite => a.key.compare b.key ≠ .eq :=
    ⟨fun _ _ h => mt compare_symm h⟩
  apply hp.foldl_eq'
  intro a ha b hb t
  by_cases hab : a = b
  · rw [hab]
  · exact congrArg Table.mk (insertIn_comm (hd.forall hb ha (Ne.symm hab)) b.value a.value t.entries)

end

end Table

namespace Heap

variable {h : Heap} {ref : Ref}

theorem key_toValue (h : Heap) (opened : List Container) (k : PropertyKey) :
    h.key opened k.toValue = k := by
  cases k <;> rfl

theorem writeObject_eq (h : Heap) (ref : Ref) (w : ObjectWrite) :
    h.writeObject ref w = h.modifyObject ref (·.insert w.key w.value) := by
  cases w with
  | set k v =>
    change h.modifyObject ref (·.insert (h.key [.object ref] k.toValue) v) = _
    rw [key_toValue]
    rfl
  | insert name v => rfl

theorem modifyObject_modifyObject (h : Heap) (ref : Ref) (f g : Table → Table) :
    (h.modifyObject ref f).modifyObject ref g = h.modifyObject ref fun t => g (f t) := by
  have hobjects : (h.objects.modify ref f).modify ref g = h.objects.modify ref fun t => g (f t) := by
    apply Array.ext_getElem?
    intro i
    simp only [Array.getElem?_modify]
    split
    · rw [Option.map_map]
      rfl
    · rfl
  unfold modifyObject
  rw [hobjects]

theorem modifyObject_id (h : Heap) (ref : Ref) : h.modifyObject ref id = h := by
  have hobjects : h.objects.modify ref id = h.objects := by
    apply Array.ext_getElem?
    intro i
    simp [Array.getElem?_modify]
  unfold modifyObject
  rw [hobjects]

theorem writeObjects_eq (h : Heap) (ref : Ref) (writes : List ObjectWrite) :
    h.writeObjects ref writes = h.modifyObject ref (·.writeAll writes) := by
  induction writes generalizing h with
  | nil => exact (h.modifyObject_id ref).symm
  | cons w writes ih =>
    change (h.writeObject ref w).writeObjects ref writes = _
    rw [ih, writeObject_eq, modifyObject_modifyObject]
    rfl

theorem object_writeObjects (h : Heap) (writes : List ObjectWrite) :
    ((h.addObject .empty).1.writeObjects h.objects.size writes).object h.objects.size =
      Table.empty.writeAll writes := by
  have hlt : h.objects.size < (h.addObject .empty).1.objects.size := by simp [addObject]
  have hempty : (h.addObject .empty).1.object h.objects.size = .empty := by
    simp [addObject, object]
  rw [writeObjects_eq, object_modifyObject hlt, hempty]

end Heap

/-- A new object lists its keys in increasing order, each of them once. What is found under a key is
what was written there last. Writes to different keys give the same object in every order, and so the
same text of every value. Keys are ordered by kind first. -/
theorem object_sorted_map (h : Heap) (writes : List ObjectWrite) :
    let new := (h.addObject .empty).1
    let ref := h.objects.size
    let h' := new.writeObjects ref writes
    (∃ keys, h'.keys? (.object ref) = some keys ∧ keys.Pairwise fun a b => a.compare b = .lt) ∧
    (∀ k : PropertyKey, h'.findProperty (.object ref) k.toValue = lastWritten k writes) ∧
    (∀ k : PropertyKey, (h'.hasProperty (.object ref) k.toValue = true ↔
        ∃ v, h'.findProperty (.object ref) k.toValue = some v) ∧
      (h'.hasProperty (.object ref) k.toValue = true ↔ ∃ w ∈ writes, k.compare w.key = .eq)) ∧
    h'.size? (.object ref) = some (countDistinct (writes.map (·.key))) ∧
    (∀ writes' : List ObjectWrite, writes.Perm writes' →
      writes.Pairwise (fun a b => a.key.compare b.key ≠ .eq) →
      (new.writeObjects ref writes').object ref = h'.object ref ∧
        ∀ v, (new.writeObjects ref writes').render v = h'.render v) ∧
    (∀ a b : PropertyKey, a.rank < b.rank → a.compare b = .lt) ∧
    ∀ a b : PropertyKey, a.compare b = .eq ↔ a = b ∨ ∃ x y, a = .real x ∧ b = .real y ∧
      ((x == y) = true ∨ x.isNaN = true ∧ y.isNaN = true) := by
  intro new ref h'
  have hobject : h'.object ref = Table.empty.writeAll writes := h.object_writeObjects writes
  have hfind (k : PropertyKey) : h'.findProperty (.object ref) k.toValue = lastWritten k writes := by
    change (h'.object ref).get? (h'.key [] k.toValue) = _
    rw [Heap.key_toValue, hobject, Table.get?_writeAll]
  refine ⟨⟨_, rfl, ?_⟩, hfind, fun k => ⟨?_, ?_⟩, ?_, fun writes' hp hd => ?_, fun a b =>
    PropertyKey.compare_of_rank_lt, fun a b => PropertyKey.compare_eq_iff⟩
  · rw [hobject]
    exact List.pairwise_map.mpr (Table.sorted_writeAll writes)
  · exact Heap.hasProperty_iff
  · rw [Heap.hasProperty_eq, hfind, Table.lastWritten_isSome]
  · change some (h'.object ref).size = _
    rw [hobject, Table.size_writeAll]
  · have hsame : new.writeObjects ref writes' = h' := by
      change _ = new.writeObjects ref writes
      rw [Heap.writeObjects_eq, Heap.writeObjects_eq]
      simp only [Table.writeAll_perm _ hp hd]
    rw [hsame]
    exact ⟨rfl, fun v => rfl⟩

def threeOnes : List ObjectWrite :=
  [.insert "1" .null, .set (.real 1) (.boolean true), .set (.integer 1) (.boolean false)]

theorem object_sorted_map_threeOnes :
    let new := (Heap.empty.addObject .empty).1
    threeOnes.Perm threeOnes.reverse ∧
      threeOnes.Pairwise (fun a b => a.key.compare b.key ≠ .eq) ∧
      (PropertyKey.integer 1).rank < (PropertyKey.real 1).rank ∧
      (new.writeObjects 0 threeOnes.reverse).object 0 = (new.writeObjects 0 threeOnes).object 0 ∧
      (new.writeObjects 0 threeOnes).size? (.object 0) = some 3 ∧
      (new.writeObjects 0 threeOnes).findProperty (.object 0) (.real 1) = some (.boolean true) ∧
      (PropertyKey.integer 1).compare (.real 1) = .lt := by
  intro new
  have hperm : threeOnes.Perm threeOnes.reverse := (List.reverse_perm threeOnes).symm
  have hdiffer : threeOnes.Pairwise (fun a b => a.key.compare b.key ≠ .eq) := by decide
  have hrank : (PropertyKey.integer 1).rank < (PropertyKey.real 1).rank := by decide
  obtain ⟨-, hfind, -, hsize, hsame, hkinds, -⟩ := object_sorted_map Heap.empty threeOnes
  exact ⟨hperm, hdiffer, hrank, (hsame _ hperm hdiffer).1, hsize, hfind (.real 1), hkinds _ _ hrank⟩

end Scriptlet
