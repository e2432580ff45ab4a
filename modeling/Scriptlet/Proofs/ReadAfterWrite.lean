import Scriptlet.Heap.Property
import Scriptlet.Proofs.PropertyTables
import Scriptlet.Proofs.RenderedContainers

/-!
Reading a property of an object after it was written. Values that are no keys of their own are keyed by
their text, so the question is how the write changes the text of the key: not at all if the object does
not occur in the key, and to one that is longer than all keys of the object if it does.
-/

namespace Scriptlet

namespace Picture

theorem itemTexts_eq (items : List (String × Picture)) :
    itemTexts items = items.map fun item => item.1 ++ item.2.text := by
  induction items with
  | nil => rfl
  | cons item items ih =>
    rw [itemTexts, ih]
    rfl

theorem length_le_intercalate {s t : String} {ts : List String} (ht : t ∈ ts) :
    t.length ≤ (s.intercalate ts).length := by
  induction ts with
  | nil => cases ht
  | cons u us ih =>
    cases us with
    | nil =>
      obtain rfl := List.mem_singleton.mp ht
      rw [String.intercalate_singleton]
    | cons w ws =>
      rw [String.intercalate_cons_cons, String.length_append, String.length_append]
      obtain rfl | hrest := List.mem_cons.mp ht
      · omega
      · have hle := ih hrest
        omega

theorem length_item_le {items : List (String × Picture)} {item : String × Picture}
    (hi : item ∈ items) (c : Container) :
    item.1.length + item.2.text.length ≤ (shown c items).text.length := by
  have hmem : item.1 ++ item.2.text ∈ itemTexts items := by
    rw [itemTexts_eq]
    exact List.mem_map_of_mem hi
  have hle := length_le_intercalate (s := ",") hmem
  rw [text, String.length_append, String.length_append]
  rw [String.length_append] at hle
  omega

end Picture

namespace Heap

/-- The container is the value, or occurs somewhere inside it. -/
def Contains (h : Heap) (v : Value) (c : Container) : Prop :=
  ∃ root ∈ v.container?, Relation.ReflTransGen h.Holds root c

def Reaches (h : Heap) (opened : List Container) (c d : Container) : Prop :=
  Relation.ReflTransGen (fun a b => h.Holds a b ∧ b ∉ opened) c d

variable {h h' : Heap} {opened opened' : List Container} {v : Value} {c d : Container}

theorem Contains.of_item {item : String × Value} (hv : v.container? = some c) (hi : item ∈ h.items c)
    (hd : h.Contains item.2 d) : h.Contains v d := by
  obtain ⟨root, hroot, hreach⟩ := hd
  exact ⟨c, hv, .head ⟨item, hi, hroot⟩ hreach⟩

theorem Reaches.step (hr : h.Reaches opened c d) :
    d = c ∨ ∃ b, h.Holds c b ∧ b ∉ c :: opened ∧ h.Reaches (c :: opened) b d := by
  induction hr with
  | refl => exact .inl rfl
  | @tail x y _ hxy ih =>
    by_cases hy : y = c
    · exact .inl hy
    · have hfresh : y ∉ c :: opened := by simp [hy, hxy.2]
      obtain rfl | ⟨b, hb, hfreshb, hreach⟩ := ih
      · exact .inr ⟨y, hxy.1, hfresh, .refl⟩
      · exact .inr ⟨b, hb, hfreshb, hreach.tail ⟨hxy.1, hfresh⟩⟩

theorem Draws.length_label_le {p : Picture} (hp : h.Draws opened v p) (hv : v.container? = some c)
    (hc : c ∉ opened) (hr : h.Reaches opened c d) {item : String × Value} (hi : item ∈ h.items d) :
    item.1.length ≤ p.text.length := by
  induction hp generalizing c with
  | plain hplain =>
    rw [hplain] at hv
    cases hv
  | cut hcut hmem =>
    obtain rfl := Option.some.inj (hcut.symm.trans hv)
    exact absurd hmem hc
  | @shown opened v e items hshown _ hlabels _ ih =>
    obtain rfl := Option.some.inj (hshown.symm.trans hv)
    -- Either the label stands in this container, or the way goes on inside it and stays out of it.
    obtain rfl | ⟨b, ⟨entry, hentry, hb⟩, hfresh, hreach⟩ := hr.step
    · have hmem : item.1 ∈ items.map (·.1) := hlabels ▸ List.mem_map_of_mem hi
      obtain ⟨part, hpart, hlabel⟩ := List.mem_map.mp hmem
      have hle := Picture.length_item_le hpart d
      rw [← hlabel]
      omega
    · obtain ⟨i, hi⟩ := List.mem_iff_getElem?.mp hentry
      obtain ⟨part, -, hzip⟩ := exists_part hlabels hi
      have hlabel := ih entry part hzip hb hfresh hreach
      have hle := Picture.length_item_le (List.of_mem_zip hzip).2 e
      omega

theorem Contains.get?_render {ref : Ref} (hv : h.Contains v (.object ref)) :
    (h.object ref).get? (.text (h.render v)) = none := by
  obtain ⟨root, hroot, hreach⟩ := hv
  obtain ⟨p, hp⟩ := h.exists_draws h.levels [] v (h.card_closed [])
  have htext : h.render v = p.text := hp.text_eq (h.card_closed [])
  have hr : h.Reaches [] root (.object ref) :=
    Relation.ReflTransGen.mono (fun _ _ hab => ⟨hab, List.not_mem_nil⟩) _ _ hreach
  by_contra hfound
  obtain ⟨w, hw⟩ := Option.ne_none_iff_exists'.mp hfound
  obtain ⟨entry, hentry, heq, -⟩ := Table.exists_entry_of_getIn hw
  have hkey : entry.1 = .text (h.render v) := PropertyKey.compare_text.mp heq
  have hitem : (entry.1.render ++ ":", entry.2) ∈ h.items (.object ref) :=
    List.mem_map.mpr ⟨entry, hentry, rfl⟩
  -- The text of the value would be a part of itself with a colon behind it.
  have hle := hp.length_label_le hroot List.not_mem_nil hr hitem
  rw [hkey, ← htext, String.length_append] at hle
  have hcolon : ":".length = 1 := rfl
  have hrender : (PropertyKey.text (h.render v)).render = h.render v := rfl
  rw [hrender] at hle
  omega

theorem renderUpTo_congr {n : Nat}
    (hplain : ∀ w, w.container? = none → h'.render w = h.render w)
    (hsame : ∀ c, h.Contains v c → h'.items c = h.items c ∧ (c ∈ opened' ↔ c ∈ opened)) :
    h'.renderUpTo n opened' v = h.renderUpTo n opened v := by
  induction n generalizing opened opened' v with
  | zero =>
    cases hv : v.container? with
    | none => rw [renderUpTo_plain hv, renderUpTo_plain hv, hplain v hv]
    | some c => cases v <;> cases hv <;> rfl
  | succ n ih =>
    cases hv : v.container? with
    | none => rw [renderUpTo_plain hv, renderUpTo_plain hv, hplain v hv]
    | some c =>
      obtain ⟨hitems, hopen⟩ := hsame c ⟨c, hv, .refl⟩
      by_cases hc : c ∈ opened
      · rw [renderUpTo_opened hv hc, renderUpTo_opened hv (hopen.mpr hc)]
      · have hinside : ∀ item ∈ h.items c,
            item.1 ++ h'.renderUpTo n (c :: opened') item.2 =
              item.1 ++ h.renderUpTo n (c :: opened) item.2 := by
          intro item hi
          congr 1
          apply ih
          intro d hd
          obtain ⟨hditems, hdopen⟩ := hsame d (hd.of_item hv hi)
          exact ⟨hditems, by simp only [List.mem_cons, hdopen]⟩
        rw [renderUpTo_shown hv hc, renderUpTo_shown hv (mt hopen.mp hc), hitems,
          List.map_congr_left hinside]

section

variable {ref : Ref} {f : Table → Table} {key : Value}

theorem items_modifyObject (hc : c ≠ .object ref) : (h.modifyObject ref f).items c = h.items c := by
  cases c with
  | object other =>
    have hne : other ≠ ref := fun heq => hc (congrArg Container.object heq)
    simp only [items, object_modifyObject_ne hne]
  | array other => rfl

theorem render_modifyObject (hv : v.container? = none) :
    (h.modifyObject ref f).render v = h.render v := by
  cases v <;> cases hv <;> simp only [render, renderWithin, renderUpTo] <;> rfl

theorem levels_modifyObject : (h.modifyObject ref f).levels = h.levels := by
  simp [levels, modifyObject]

theorem key_modifyObject (hk : ¬ h.Contains key (.object ref)) :
    (h.modifyObject ref f).key [] key = h.key [.object ref] key := by
  have htext : (h.modifyObject ref f).renderWithin [] key = h.renderWithin [.object ref] key := by
    unfold renderWithin
    rw [levels_modifyObject]
    apply renderUpTo_congr fun w hw => render_modifyObject hw
    intro c hc
    have hne : c ≠ .object ref := fun heq => hk (heq ▸ hc)
    exact ⟨items_modifyObject hne, by simp [hne]⟩
  cases key with
  | null | boolean | integer | real | text => rfl
  | _ => exact congrArg PropertyKey.text htext

theorem Contains.modifyObject (hk : h.Contains key (.object ref)) :
    (h.modifyObject ref f).Contains key (.object ref) := by
  obtain ⟨root, hroot, hreach⟩ := hk
  refine ⟨root, hroot, ?_⟩
  clear hroot
  -- Only the items of the object change, and a way that comes to the object is at its end.
  induction hreach using Relation.ReflTransGen.head_induction_on with
  | refl => exact .refl
  | @head a b hab _ ih =>
    by_cases ha : a = .object ref
    · exact ha ▸ .refl
    · obtain ⟨item, hi, hb⟩ := hab
      exact .head ⟨item, (items_modifyObject ha).symm ▸ hi, hb⟩ ih

theorem Contains.key_eq (hk : h.Contains key c) : h.key [] key = .text (h.render key) := by
  obtain ⟨root, hroot, -⟩ := hk
  cases key with
  | object | array => rfl
  | _ => cases hroot

end

end Heap

/-- After a property of an object was written, reading it gives what was written, unless the key is a
container in which the object occurs: then nothing is found. -/
theorem read_after_write (h : Heap) {ref : Ref} (href : ref < h.objects.size) (key value : Value) :
    let h' := h.setProperty (.object ref) key value
    (¬ h.Contains key (.object ref) →
      h'.getProperty (.object ref) key = value ∧ h'.hasProperty (.object ref) key = true) ∧
    (h.Contains key (.object ref) →
      h'.getProperty (.object ref) key = .null ∧ h'.hasProperty (.object ref) key = false) := by
  intro h'
  have hobject : h'.object ref = (h.object ref).insert (h.key [.object ref] key) value :=
    Heap.object_modifyObject href _
  constructor
  · intro hk
    have hkey : h'.key [] key = h.key [.object ref] key := Heap.key_modifyObject hk
    have hfound : h'.findProperty (.object ref) key = some value := by
      change (h'.object ref).get? (h'.key [] key) = some value
      rw [hobject, hkey]
      exact Table.get?_insert_self _ _ _
    rw [Heap.getProperty, Heap.hasProperty_eq, hfound]
    exact ⟨rfl, rfl⟩
  · intro hk
    have hk' : h'.Contains key (.object ref) := hk.modifyObject
    have hnone : h'.findProperty (.object ref) key = none := by
      change (h'.object ref).get? (h'.key [] key) = none
      rw [hk'.key_eq]
      exact hk'.get?_render
    rw [Heap.getProperty, Heap.hasProperty_eq, hnone]
    exact ⟨rfl, rfl⟩

def arrayKeys : Heap :=
  { Heap.empty with objects := #[.empty], arrays := #[#[.array 0], #[.object 0]] }

theorem read_after_write_arrayKeys :
    0 < arrayKeys.objects.size ∧ ¬ arrayKeys.Contains (.array 0) (.object 0) ∧
      arrayKeys.Contains (.array 1) (.object 0) ∧
      (arrayKeys.setProperty (.object 0) (.array 0) (.object 0)).getProperty (.object 0) (.array 0) =
        .object 0 ∧
      (arrayKeys.setProperty (.object 0) (.array 1) (.object 0)).getProperty (.object 0) (.array 1) =
        .null := by
  have hsize : 0 < arrayKeys.objects.size := by decide
  have hself {c : Container} (hreach : Relation.ReflTransGen arrayKeys.Holds (.array 0) c) :
      c = .array 0 := by
    induction hreach with
    | refl => rfl
    | tail _ hstep ih =>
      obtain ⟨item, hi, hc⟩ := hstep
      obtain rfl : item = ("", .array 0) := by
        simpa [ih, Heap.items, Heap.array, arrayKeys, Heap.empty] using hi
      exact (Option.some.inj hc).symm
  have hout : ¬ arrayKeys.Contains (.array 0) (.object 0) := by
    rintro ⟨root, hroot, hreach⟩
    cases hroot
    cases hself hreach
  have hin : arrayKeys.Contains (.array 1) (.object 0) :=
    ⟨.array 1, rfl, .single ⟨("", .object 0), by decide, rfl⟩⟩
  exact ⟨hsize, hout, hin, ((read_after_write arrayKeys hsize (.array 0) (.object 0)).1 hout).1,
    ((read_after_write arrayKeys hsize (.array 1) (.object 0)).2 hin).1⟩

theorem own_key_not_read :
    let h : Heap := { Heap.empty with objects := #[.empty] }
    (h.setProperty (.object 0) (.object 0) (.integer 1)).getProperty (.object 0) (.object 0) ≠
      .integer 1 := by
  decide +kernel

end Scriptlet
