import Mathlib
import Scriptlet.Heap.Render

/-!
The text of a value as a finite tree of containers. Of the occurrences of containers in the unfolding
of the value, the tree holds those on whose way no container is passed twice, and it cuts off exactly
those whose container is already open.
-/

namespace Scriptlet

def Value.container? : Value → Option Container
  | .object ref => some (.object ref)
  | .array ref => some (.array ref)
  | _ => none

namespace Container

def opening : Container → String
  | object _ => "\x7b"
  | array _ => "["

def closing : Container → String
  | object _ => "\x7d"
  | array _ => "]"

end Container

/-- What a text shows: a container with its items, each under the text that stands before it. -/
inductive Picture
  | plain (text : String)
  | cut
  | shown (c : Container) (items : List (String × Picture))

namespace Picture

mutual

def text : Picture → String
  | .plain text => text
  | .cut => "..."
  | .shown c items => c.opening ++ ",".intercalate (itemTexts items) ++ c.closing
termination_by structural p => p

def itemTexts : List (String × Picture) → List String
  | [] => []
  | (label, p) :: rest => (label ++ p.text) :: itemTexts rest
termination_by structural items => items

end

def at? : Picture → List Nat → Option Picture
  | p, [] => some p
  | .shown _ items, i :: path => items[i]? >>= fun item => item.2.at? path
  | _, _ :: _ => none

end Picture

namespace Heap

def items (h : Heap) : Container → List (String × Value)
  | .object ref => (h.object ref).entries.map fun entry => (entry.1.render ++ ":", entry.2)
  | .array ref => (h.array ref).toList.map fun v => ("", v)

def follow? (h : Heap) : Value → List Nat → Option (List Container × Value)
  | v, [] => some ([], v)
  | v, i :: path => do
    let c ← v.container?
    let item ← (h.items c)[i]?
    let (passed, w) ← h.follow? item.2 path
    return (c :: passed, w)

/-- An occurrence of `w` inside the containers `passed`: a container is cut off if it is one of those,
and otherwise all its items are there. -/
def Shows (h : Heap) (passed : List Container) (w : Value) (p : Picture) : Prop :=
  match w.container? with
  | none => p = .plain (h.render w)
  | some c =>
    if c ∈ passed then p = .cut
    else ∃ items, p = .shown c items ∧ items.map (·.1) = (h.items c).map (·.1)

/-- The picture has the occurrences that are reached without passing a container twice. -/
structure Depicts (h : Heap) (v : Value) (p : Picture) : Prop where
  occurs : ∀ path passed w, h.follow? v path = some (passed, w) → passed.Nodup →
    ∃ s, p.at? path = some s ∧ h.Shows passed w s
  only : ∀ path s, p.at? path = some s →
    ∃ passed w, h.follow? v path = some (passed, w) ∧ passed.Nodup

structure Unfolds (h : Heap) (v : Value) (p : Picture) : Prop where
  occurs : ∀ path passed w, h.follow? v path = some (passed, w) →
    ∃ s, p.at? path = some s ∧ h.Shows [] w s
  only : ∀ path s, p.at? path = some s → ∃ passed w, h.follow? v path = some (passed, w)

def Holds (h : Heap) (c d : Container) : Prop := ∃ item ∈ h.items c, item.2.container? = some d

def AcyclicFrom (h : Heap) (v : Value) : Prop :=
  ∀ root ∈ v.container?, ∀ c, Relation.ReflTransGen h.Holds root c → ¬ Relation.TransGen h.Holds c c

/-- The rule of rendering, with no bound on the levels: `opened` are the containers around. -/
inductive Draws (h : Heap) : List Container → Value → Picture → Prop
  | plain {opened v} : v.container? = none → h.Draws opened v (.plain (h.render v))
  | cut {opened v c} : v.container? = some c → c ∈ opened → h.Draws opened v .cut
  | shown {opened v c items} : v.container? = some c → c ∉ opened →
      items.map (·.1) = (h.items c).map (·.1) →
      (∀ item part, (item, part) ∈ (h.items c).zip items →
        h.Draws (c :: opened) item.2 part.2) →
      h.Draws opened v (.shown c items)

section

variable {h : Heap} {n : Nat} {opened : List Container} {v : Value} {c : Container}

theorem renderUpTo_plain (hv : v.container? = none) : h.renderUpTo n opened v = h.render v := by
  cases v <;> cases hv <;> simp [render, renderWithin, renderUpTo]

theorem renderUpTo_opened (hv : v.container? = some c) (hc : c ∈ opened) :
    h.renderUpTo n opened v = "..." := by
  cases n <;> cases v <;> cases hv <;> simp [renderUpTo, hc]

theorem renderUpTo_shown (hv : v.container? = some c) (hc : c ∉ opened) :
    h.renderUpTo (n + 1) opened v = c.opening ++ ",".intercalate
      ((h.items c).map fun item => item.1 ++ h.renderUpTo n (c :: opened) item.2) ++ c.closing := by
  cases v <;> cases hv <;>
    simp [renderUpTo, hc, items, Container.opening, Container.closing, Function.comp_def]

def closed (h : Heap) (opened : List Container) : Finset Container :=
  ((Finset.range h.objects.size).image .object ∪ (Finset.range h.arrays.size).image .array) \
    opened.toFinset

theorem card_closed (h : Heap) (opened : List Container) : (h.closed opened).card < h.levels := by
  have hsub : h.closed opened ⊆
      (Finset.range h.objects.size).image .object ∪ (Finset.range h.arrays.size).image .array :=
    Finset.sdiff_subset
  have hobjects : ((Finset.range h.objects.size).image Container.object).card ≤ _ :=
    Finset.card_image_le
  have harrays : ((Finset.range h.arrays.size).image Container.array).card ≤ _ :=
    Finset.card_image_le
  have hunion := Finset.card_union_le ((Finset.range h.objects.size).image Container.object)
    ((Finset.range h.arrays.size).image Container.array)
  have hle := Finset.card_le_card hsub
  simp only [Finset.card_range] at hobjects harrays
  unfold levels
  omega

theorem mem_closed_of_item {item : String × Value} (hi : item ∈ h.items c) (hc : c ∉ opened) :
    c ∈ h.closed opened := by
  cases c with
  | object ref =>
    have hlt : ref < h.objects.size := by
      by_contra hge
      simp [items, object, Array.getElem?_eq_none (Nat.le_of_not_lt hge), Table.empty] at hi
    simp [closed, hlt, hc]
  | array ref =>
    have hlt : ref < h.arrays.size := by
      by_contra hge
      simp [items, array, Array.getElem?_eq_none (Nat.le_of_not_lt hge)] at hi
    simp [closed, hlt, hc]

theorem card_closed_cons {item : String × Value} (hi : item ∈ h.items c) (hc : c ∉ opened)
    (hn : (h.closed opened).card < n + 1) : (h.closed (c :: opened)).card < n := by
  have hmem := mem_closed_of_item hi hc
  have hlt : (h.closed (c :: opened)).card < (h.closed opened).card := by
    apply Finset.card_lt_card
    apply (Finset.ssubset_iff_of_subset _).mpr
    · refine ⟨c, hmem, ?_⟩
      simp [closed]
    · intro d hd
      simp only [closed, Finset.mem_sdiff, List.mem_toFinset, List.mem_cons, not_or] at hd ⊢
      exact ⟨hd.1, hd.2.2⟩
  omega

theorem exists_items {es : List (String × Value)} (hes : ∀ e ∈ es, ∃ p, h.Draws opened e.2 p) :
    ∃ items : List (String × Picture), items.map (·.1) = es.map (·.1) ∧
      ∀ item part, (item, part) ∈ es.zip items → h.Draws opened item.2 part.2 := by
  induction es with
  | nil => exact ⟨[], rfl, fun item part hi => by simp at hi⟩
  | cons e es ih =>
    obtain ⟨p, hp⟩ := hes e List.mem_cons_self
    obtain ⟨items, hlabels, hitems⟩ := ih fun e' he => hes e' (List.mem_cons_of_mem _ he)
    refine ⟨(e.1, p) :: items, by simp [hlabels], ?_⟩
    intro item part hi
    rw [List.zip_cons_cons, List.mem_cons] at hi
    obtain hfirst | hrest := hi
    · cases hfirst
      exact hp
    · exact hitems item part hrest

section

variable {es : List (String × Value)} {items : List (String × Picture)} {i : Nat}

theorem exists_part (hlabels : items.map (·.1) = es.map (·.1)) {item : String × Value}
    (hi : es[i]? = some item) : ∃ part, items[i]? = some part ∧ (item, part) ∈ es.zip items := by
  have hlen : items.length = es.length := by simpa using congrArg List.length hlabels
  obtain ⟨hlt, -⟩ := List.getElem?_eq_some_iff.mp hi
  have hpart : items[i]? = some items[i] := List.getElem?_eq_getElem (hlen ▸ hlt)
  exact ⟨_, hpart, List.mem_of_getElem? (List.getElem?_zip_eq_some.mpr ⟨hi, hpart⟩)⟩

theorem exists_item (hlabels : items.map (·.1) = es.map (·.1)) {part : String × Picture}
    (hpart : items[i]? = some part) : ∃ item, es[i]? = some item ∧ (item, part) ∈ es.zip items := by
  have hlen : items.length = es.length := by simpa using congrArg List.length hlabels
  obtain ⟨hlt, -⟩ := List.getElem?_eq_some_iff.mp hpart
  have hi : es[i]? = some es[i] := List.getElem?_eq_getElem (hlen ▸ hlt)
  exact ⟨_, hi, List.mem_of_getElem? (List.getElem?_zip_eq_some.mpr ⟨hi, hpart⟩)⟩

end

theorem exists_draws (h : Heap) (n : Nat) (opened : List Container) (v : Value)
    (hn : (h.closed opened).card < n) : ∃ p, h.Draws opened v p := by
  induction n generalizing opened v with
  | zero => omega
  | succ n ih =>
    cases hv : v.container? with
    | none => exact ⟨_, .plain hv⟩
    | some c =>
      by_cases hc : c ∈ opened
      · exact ⟨_, .cut hv hc⟩
      · have hinside : ∀ item ∈ h.items c, ∃ p, h.Draws (c :: opened) item.2 p :=
          fun item hi => ih _ item.2 (card_closed_cons hi hc hn)
        obtain ⟨items, hlabels, hitems⟩ := exists_items hinside
        exact ⟨_, .shown hv hc hlabels hitems⟩

theorem map_eq_itemTexts {es : List (String × Value)} {items : List (String × Picture)}
    {f : Value → String} (hlabels : items.map (·.1) = es.map (·.1))
    (hitems : ∀ item part, (item, part) ∈ es.zip items → f item.2 = part.2.text) :
    es.map (fun item => item.1 ++ f item.2) = Picture.itemTexts items := by
  induction es generalizing items with
  | nil =>
    obtain rfl : items = [] := by simpa using hlabels
    rfl
  | cons e es ih =>
    cases items with
    | nil => simp at hlabels
    | cons part items =>
      simp only [List.map_cons, List.cons.injEq] at hlabels
      have hfirst := hitems e part List.mem_cons_self
      have hrest := ih hlabels.2 fun item part hi => hitems item part (List.mem_cons_of_mem _ hi)
      rw [List.map_cons, hrest, hfirst, ← hlabels.1]
      rfl

theorem Draws.text_eq {p : Picture} (hd : h.Draws opened v p) (hn : (h.closed opened).card < n) :
    h.renderUpTo n opened v = p.text := by
  induction hd generalizing n with
  | plain hv => exact renderUpTo_plain hv
  | cut hv hc => exact renderUpTo_opened hv hc
  | @shown opened v c items hv hc hlabels _ ih =>
    cases n with
    | zero => omega
    | succ n =>
      have htexts := map_eq_itemTexts (f := h.renderUpTo n (c :: opened)) hlabels
        fun item part hi => ih item part hi (card_closed_cons (List.of_mem_zip hi).1 hc hn)
      rw [renderUpTo_shown hv hc, htexts]
      rfl

theorem Shows.congr {passed passed' : List Container} {p : Picture} (hs : h.Shows passed v p)
    (hpassed : ∀ c ∈ v.container?, c ∈ passed ↔ c ∈ passed') : h.Shows passed' v p := by
  unfold Shows at hs ⊢
  cases hv : v.container? with
  | none => simpa only [hv] using hs
  | some c => simpa only [hv, hpassed c hv] using hs

theorem Draws.shows {p : Picture} (hd : h.Draws opened v p) : h.Shows opened v p := by
  unfold Shows
  cases hd with
  | plain hv => simp [hv]
  | cut hv hc => simp [hv, hc]
  | shown hv hc hlabels _ => simpa [hv, hc] using hlabels

theorem follow?_cons {i : Nat} {path : List Nat} {passed : List Container} {w : Value}
    (hf : h.follow? v (i :: path) = some (passed, w)) :
    ∃ c item inner, v.container? = some c ∧ (h.items c)[i]? = some item ∧
      h.follow? item.2 path = some (inner, w) ∧ passed = c :: inner := by
  simp only [follow?, Option.bind_eq_bind, Option.bind_eq_some_iff] at hf
  obtain ⟨c, hc, item, hi, ⟨inner, u⟩, hrest, hlast⟩ := hf
  cases hlast
  exact ⟨c, item, inner, hc, hi, hrest, rfl⟩

theorem Draws.occurs {p : Picture} {path : List Nat} {passed : List Container} {w : Value}
    (hd : h.Draws opened v p) (hf : h.follow? v path = some (passed, w)) (hnodup : passed.Nodup)
    (hfresh : ∀ c ∈ passed, c ∉ opened) :
    ∃ s, p.at? path = some s ∧ h.Shows (passed ++ opened) w s := by
  induction path generalizing opened v p passed with
  | nil =>
    cases hf
    exact ⟨p, by cases p <;> rfl, hd.shows⟩
  | cons i path ih =>
    obtain ⟨c, item, inner, hc, hi, hrest, rfl⟩ := follow?_cons hf
    obtain ⟨hout, hinner⟩ := List.nodup_cons.mp hnodup
    have hopen := hfresh c List.mem_cons_self
    cases hd with
    | plain hv => rw [hv] at hc; cases hc
    | cut hv hmem =>
      rw [hv] at hc
      cases hc
      exact absurd hmem hopen
    | @shown _ _ d items hv _ hlabels hinside =>
      obtain rfl : d = c := Option.some.inj (hv.symm.trans hc)
      obtain ⟨part, hpart, hzip⟩ := exists_part hlabels hi
      have hfresh' : ∀ e ∈ inner, e ∉ d :: opened := by
        intro e he hmem
        obtain rfl | hmem := List.mem_cons.mp hmem
        · exact hout he
        · exact hfresh e (List.mem_cons_of_mem _ he) hmem
      obtain ⟨s, hs, hshows⟩ := ih (hinside item part hzip) hrest hinner hfresh'
      refine ⟨s, by simpa [Picture.at?, hpart] using hs, hshows.congr fun e _ => ?_⟩
      simp only [List.mem_append, List.mem_cons]
      tauto

theorem Draws.only {p s : Picture} {path : List Nat} (hd : h.Draws opened v p)
    (hs : p.at? path = some s) :
    ∃ passed w, h.follow? v path = some (passed, w) ∧ passed.Nodup ∧ ∀ c ∈ passed, c ∉ opened := by
  induction path generalizing opened v p with
  | nil => exact ⟨[], v, rfl, List.nodup_nil, List.forall_mem_nil _⟩
  | cons i path ih =>
    cases hd with
    | plain => cases hs
    | cut => cases hs
    | @shown _ _ c items hv hc hlabels hinside =>
      obtain ⟨part, hpart, hs⟩ := Option.bind_eq_some_iff.mp hs
      obtain ⟨item, hi, hzip⟩ := exists_item hlabels hpart
      obtain ⟨passed, w, hf, hnodup, hfresh⟩ := ih (hinside item part hzip) hs
      refine ⟨c :: passed, w, by simp [follow?, hv, hi, hf], ?_, ?_⟩
      · exact List.nodup_cons.mpr ⟨fun hmem => hfresh c hmem List.mem_cons_self, hnodup⟩
      · intro d hd hmem
        obtain rfl | hd := List.mem_cons.mp hd
        · exact hc hmem
        · exact hfresh d hd (List.mem_cons_of_mem _ hmem)

theorem Draws.depicts {p : Picture} (hd : h.Draws [] v p) : h.Depicts v p where
  occurs path passed w hf hnodup := by
    simpa using hd.occurs hf hnodup fun _ _ => List.not_mem_nil
  only path s hs := by
    obtain ⟨passed, w, hf, hnodup, -⟩ := hd.only hs
    exact ⟨passed, w, hf, hnodup⟩

theorem follow?_reaches {path : List Nat} {passed : List Container} {w : Value}
    (hf : h.follow? v path = some (passed, w)) :
    ∀ d ∈ passed ++ w.container?.toList, ∃ c ∈ v.container?, Relation.ReflTransGen h.Holds c d := by
  induction path generalizing v passed with
  | nil =>
    cases hf
    intro d hd
    exact ⟨d, by simpa using hd, .refl⟩
  | cons i path ih =>
    obtain ⟨c, item, inner, hc, hi, hrest, rfl⟩ := follow?_cons hf
    intro d hd
    refine ⟨c, hc, ?_⟩
    obtain rfl | hd := List.mem_cons.mp hd
    · exact .refl
    · obtain ⟨e, he, hreach⟩ := ih hrest d hd
      exact .head ⟨item, List.mem_of_getElem? hi, he⟩ hreach

theorem AcyclicFrom.follow?_nodup {path : List Nat} {passed : List Container} {w : Value}
    (ha : h.AcyclicFrom v) (hf : h.follow? v path = some (passed, w)) :
    (passed ++ w.container?.toList).Nodup := by
  induction path generalizing v passed with
  | nil =>
    cases hf
    cases w.container? <;> simp
  | cons i path ih =>
    obtain ⟨c, item, inner, hc, hi, hrest, rfl⟩ := follow?_cons hf
    have hholds {d : Container} (hd : d ∈ item.2.container?) : h.Holds c d :=
      ⟨item, List.mem_of_getElem? hi, hd⟩
    have hitem : h.AcyclicFrom item.2 := fun d hd e he => ha c hc e (.head (hholds hd) he)
    refine List.nodup_cons.mpr ⟨fun hmem => ?_, ih hitem hrest⟩
    -- The container would be met again inside itself.
    obtain ⟨d, hd, hreach⟩ := follow?_reaches hrest c hmem
    exact ha c hc c .refl (.head' (hholds hd) hreach)

theorem Depicts.unfolds {p : Picture} (hp : h.Depicts v p) (ha : h.AcyclicFrom v) :
    h.Unfolds v p where
  occurs path passed w hf := by
    have hnodup := ha.follow?_nodup hf
    obtain ⟨s, hs, hshows⟩ := hp.occurs path passed w hf hnodup.of_append_left
    refine ⟨s, hs, hshows.congr fun c hc => ?_⟩
    have hdisjoint := List.disjoint_of_nodup_append hnodup
    simp only [List.not_mem_nil, iff_false]
    exact fun hmem => hdisjoint hmem (by simpa using hc)
  only path s hs := by
    obtain ⟨passed, w, hf, -⟩ := hp.only path s hs
    exact ⟨passed, w, hf⟩

end

end Heap

/-- However many levels are allowed from `levels` on, the text of a value is that of one finite
picture: `...` stands exactly at the containers that are already open where they occur, and if there
is no cycle the picture is the whole unfolding. -/
theorem render_faithful (h : Heap) (v : Value) :
    ∃ p : Picture, h.Depicts v p ∧ (∀ n, h.levels ≤ n → h.renderUpTo n [] v = p.text) ∧
      h.render v = p.text ∧ (h.AcyclicFrom v → h.Unfolds v p) := by
  obtain ⟨p, hd⟩ := h.exists_draws h.levels [] v (h.card_closed [])
  have htext (n : Nat) (hn : h.levels ≤ n) : h.renderUpTo n [] v = p.text :=
    hd.text_eq (Nat.lt_of_lt_of_le (h.card_closed []) hn)
  exact ⟨p, hd.depicts, htext, htext h.levels (Nat.le_refl _), hd.depicts.unfolds⟩

theorem Heap.acyclicFrom_of_rank {h : Heap} (rank : Container → Nat)
    (hrank : ∀ c d, h.Holds c d → rank d < rank c) (v : Value) : h.AcyclicFrom v := by
  have hlt {c d : Container} (hreach : Relation.TransGen h.Holds c d) : rank d < rank c := by
    induction hreach with
    | single hcd => exact hrank _ _ hcd
    | tail _ hde ih => exact Nat.lt_trans (hrank _ _ hde) ih
  exact fun _ _ c _ hcycle => Nat.lt_irrefl _ (hlt hcycle)

def sharedArrays : Heap := { Heap.empty with arrays := #[#[.integer 1], #[.array 0, .array 0]] }

theorem render_faithful_sharedArrays :
    sharedArrays.AcyclicFrom (.array 1) ∧
      ∃ p : Picture, sharedArrays.Unfolds (.array 1) p ∧ p.text = "[[1],[1]]" := by
  have hacyclic : sharedArrays.AcyclicFrom (.array 1) := by
    apply Heap.acyclicFrom_of_rank fun c => if c = .array 1 then 1 else 0
    rintro c d ⟨item, hitem, hd⟩
    obtain rfl | hne := eq_or_ne c (.array 1)
    · obtain rfl : item = ("", .array 0) := by
        simpa [Heap.items, Heap.array, sharedArrays, Heap.empty] using hitem
      cases hd
      decide
    · rcases c with ref | _ | _ | ref <;>
        simp_all [Heap.items, Heap.object, Heap.array, sharedArrays, Heap.empty, Table.empty]
      cases hd
  obtain ⟨p, -, -, htext, hunfolds⟩ := render_faithful sharedArrays (.array 1)
  have hrender : sharedArrays.render (.array 1) = "[[1],[1]]" := by decide +kernel
  exact ⟨hacyclic, p, hunfolds hacyclic, htext.symm.trans hrender⟩

end Scriptlet
