import Mathlib
import Scriptlet.Proofs.StateGrowth

/-!
Reading and assigning in nested scopes. Both walk outward to the nearest scope that binds the name,
and an assignment changes this one binding. A declaration is seen from the scopes inside that come to
it before they come to another binder of the name.
-/

namespace Scriptlet

namespace Heap

def parent? (h : Heap) (ref : Ref) : Option Ref := h.scope? ref >>= (·.parent)

def Forest (h : Heap) : Prop := ∀ ref parent, h.parent? ref = some parent → parent < ref

def Within (h : Heap) (inner outer : Ref) : Prop :=
  Relation.ReflTransGen (fun r p => h.parent? r = some p) inner outer

def Binds (h : Heap) (name : String) (ref : Ref) : Prop := ∃ v, h.own? name ref = some v

inductive NearestBinder (h : Heap) (name : String) : Ref → Ref → Prop
  | here {ref : Ref} : h.Binds name ref → h.NearestBinder name ref ref
  | outer {ref parent b : Ref} : ¬ h.Binds name ref → h.parent? ref = some parent →
      h.NearestBinder name parent b → h.NearestBinder name ref b

/-- The two heaps are equal but for the value of `name` in `scope`, which is `v` in the second. -/
structure Rebinds (h h' : Heap) (scope : Ref) (name : String) (v : Value) : Prop where
  before : h.Binds name scope
  after : h'.own? name scope = some v
  others : ∀ x, x ≠ name → h'.own? x scope = h.own? x scope
  names : h'.names scope = h.names scope
  parent : h'.parent? scope = h.parent? scope
  elsewhere : ∀ ref, ref ≠ scope → h'.scope? ref = h.scope? ref
  rest : h' = { h with scopes := h'.scopes }

def assigned (h : Heap) (ref : Ref) (name : String) (v : Value) : Heap × Bool :=
  match h.assign? ref name v with
  | some h' => (h', true)
  | none => (h, false)

inductive Scoped : Heap → Prop
  | start : Scoped Heap.empty
  | root {h : Heap} : Scoped h → Scoped (h.addScope none).1
  | child {h : Heap} {parent : Ref} : Scoped h → parent < h.scopes.size →
      Scoped (h.addScope (some parent)).1
  | define {h : Heap} (ref : Ref) (name : String) (v : Value) :
      Scoped h → Scoped (h.define ref name v)
  | assign {h : Heap} (ref : Ref) (name : String) (v : Value) :
      Scoped h → Scoped (h.assigned ref name v).1

section

variable {h h' : Heap} {name x : String} {v : Value} {b c r s p : Ref}

theorem binds_iff_bindsAt : h.Binds name r ↔ h.bindsAt name r = true := by
  rw [bindsAt_eq, Option.isSome_iff_exists, Binds]

theorem not_binds_iff : ¬ h.Binds name r ↔ h.own? name r = none := by
  unfold Binds
  rw [Option.eq_none_iff_forall_ne_some, not_exists]

theorem parent?_of_scope {scope : Scope} (hs : h.scope? r = some scope) :
    h.parent? r = scope.parent := by
  rw [parent?, hs]
  rfl

theorem chainUpTo_congr (hf : h.Forest) {n m : Nat} (hn : r < n) (hm : r < m) :
    h.chainUpTo n r = h.chainUpTo m r := by
  induction n generalizing m r with
  | zero => exact absurd hn (Nat.not_lt_zero r)
  | succ n ih =>
    cases m with
    | zero => exact absurd hm (Nat.not_lt_zero r)
    | succ m =>
      rw [chainUpTo, chainUpTo]
      cases hs : h.scope? r with
      | none => rfl
      | some scope =>
        dsimp only
        cases hp : scope.parent with
        | none => rfl
        | some p =>
          have hlt : p < r := hf r p ((parent?_of_scope hs).trans hp)
          have hpn : p < n := Nat.lt_of_lt_of_le hlt (Nat.le_of_lt_succ hn)
          have hpm : p < m := Nat.lt_of_lt_of_le hlt (Nat.le_of_lt_succ hm)
          rw [Option.elim_some, Option.elim_some, ih hpn hpm]

theorem binder?_here (hb : h.Binds name r) : h.binder? r name = some r := by
  have hat := binds_iff_bindsAt.mp hb
  obtain ⟨v, hv⟩ := hb
  obtain ⟨scope, hs, -⟩ := Option.bind_eq_some_iff.mp hv
  rw [binder?, chain, chainUpTo, hs]
  dsimp only
  rw [List.find?_cons, hat]

theorem binder?_outer (hf : h.Forest) (hb : ¬ h.Binds name r) (hp : h.parent? r = some p) :
    h.binder? r name = h.binder? p name := by
  have hat : h.bindsAt name r = false := by simpa using mt binds_iff_bindsAt.mpr hb
  obtain ⟨scope, hs, hparent⟩ := Option.bind_eq_some_iff.mp hp
  have hlt := hf r p hp
  rw [binder?, chain, chainUpTo, hs]
  dsimp only
  rw [List.find?_cons, hat, hparent, Option.elim_some, binder?, chain,
    chainUpTo_congr hf hlt (Nat.lt_succ_self p)]

theorem binder?_root (hb : ¬ h.Binds name r) (hp : h.parent? r = none) : h.binder? r name = none := by
  have hat : h.bindsAt name r = false := by simpa using mt binds_iff_bindsAt.mpr hb
  rw [binder?, chain, chainUpTo]
  cases hs : h.scope? r with
  | none => rfl
  | some scope =>
    have hparent : scope.parent = none := (parent?_of_scope hs).symm.trans hp
    dsimp only
    rw [List.find?_cons, hat, hparent]
    rfl

theorem NearestBinder.binder? (hf : h.Forest) (hn : h.NearestBinder name r b) :
    h.binder? r name = some b := by
  induction hn with
  | here hb => exact binder?_here hb
  | outer hb hp _ ih => rw [binder?_outer hf hb hp, ih]

theorem exists_nearestBinder_or_none (hf : h.Forest) (name : String) (r : Ref) :
    (∃ b, h.NearestBinder name r b) ∨ h.binder? r name = none := by
  induction r using Nat.strong_induction_on with
  | _ r ih =>
    by_cases hb : h.Binds name r
    · exact .inl ⟨r, .here hb⟩
    · cases hp : h.parent? r with
      | none => exact .inr (binder?_root hb hp)
      | some p =>
        rcases ih p (hf r p hp) with ⟨b, hn⟩ | hnone
        · exact .inl ⟨b, .outer hb hp hn⟩
        · exact .inr ((binder?_outer hf hb hp).trans hnone)

theorem binder?_eq_some_iff (hf : h.Forest) :
    h.binder? r name = some b ↔ h.NearestBinder name r b := by
  constructor
  · intro hfound
    rcases exists_nearestBinder_or_none hf name r with ⟨c, hn⟩ | hnone
    · have hc := hn.binder? hf
      rw [hfound] at hc
      cases hc
      exact hn
    · rw [hnone] at hfound
      cases hfound
  · exact fun hn => hn.binder? hf

theorem lookup_eq (hf : h.Forest) (r : Ref) (name : String) :
    h.lookup r name = (h.own? name r).or ((h.parent? r).bind fun p => h.lookup p name) := by
  by_cases hb : h.Binds name r
  · rw [lookup_eq_binder, binder?_here hb]
    obtain ⟨v, hv⟩ := hb
    simp [hv]
  · rw [not_binds_iff.mp hb, Option.none_or]
    cases hp : h.parent? r with
    | none =>
      rw [lookup_eq_binder, binder?_root hb hp]
      rfl
    | some p =>
      rw [lookup_eq_binder, binder?_outer hf hb hp, Option.bind_some, lookup_eq_binder]

theorem NearestBinder.binds (hn : h.NearestBinder name r b) : h.Binds name b := by
  induction hn with
  | here hb => exact hb
  | outer _ _ _ ih => exact ih

theorem NearestBinder.within (hn : h.NearestBinder name r b) : h.Within r b := by
  induction hn with
  | here => exact .refl
  | outer _ hp _ ih => exact .head hp ih

theorem exists_nearestBinder (hw : h.Within r c) (hb : h.Binds name c) :
    ∃ b, h.NearestBinder name r b := by
  induction hw using Relation.ReflTransGen.head_induction_on with
  | refl => exact ⟨c, .here hb⟩
  | @head r p hp _ ih =>
    by_cases hr : h.Binds name r
    · exact ⟨r, .here hr⟩
    · obtain ⟨b, hn⟩ := ih
      exact ⟨b, .outer hr hp hn⟩

theorem Within.le (hf : h.Forest) (hw : h.Within r s) : s ≤ r := by
  induction hw with
  | refl => exact Nat.le_refl r
  | tail _ hp ih => exact Nat.le_trans (Nat.le_of_lt (hf _ _ hp)) ih

theorem lookup_bindIn_self (name : String) (v : Value) (bindings : List (String × Value)) :
    (bindIn name v bindings).lookup name = some v := by
  induction bindings with
  | nil => simp [bindIn]
  | cons binding rest ih =>
    obtain ⟨n, w⟩ := binding
    by_cases hn : n = name
    · simp [bindIn, hn]
    · have hne : (name == n) = false := beq_false_of_ne (Ne.symm hn)
      simp [bindIn, hn, List.lookup_cons, hne, ih]

theorem lookup_bindIn_ne (hx : x ≠ name) (v : Value) (bindings : List (String × Value)) :
    (bindIn name v bindings).lookup x = bindings.lookup x := by
  have hne : (x == name) = false := beq_false_of_ne hx
  induction bindings with
  | nil => simp [bindIn, List.lookup, hne]
  | cons binding rest ih =>
    obtain ⟨n, w⟩ := binding
    unfold bindIn
    split
    · next hn =>
      subst hn
      rw [List.lookup_cons, List.lookup_cons, hne]
    · rw [List.lookup_cons, List.lookup_cons, ih]

theorem own?_define_self (hs : s < h.scopes.size) : (h.define s name v).own? name s = some v := by
  have hscope : h.scope? s = some h.scopes[s] := Array.getElem?_eq_getElem hs
  rw [own?, scope?_define_self, hscope]
  exact lookup_bindIn_self name v h.scopes[s].bindings

theorem own?_define_of_ne (hne : r ≠ s ∨ x ≠ name) : (h.define s name v).own? x r = h.own? x r := by
  by_cases hr : r = s
  · have hx : x ≠ name := hne.resolve_left (not_not_intro hr)
    subst hr
    rw [own?, own?, scope?_define_self]
    cases h.scope? r with
    | none => rfl
    | some scope => exact lookup_bindIn_ne hx v scope.bindings
  · rw [own?, own?, scope?_define_ne hr]

theorem parent?_define : (h.define s name v).parent? r = h.parent? r := by
  by_cases hr : r = s
  · subst hr
    rw [parent?, parent?, scope?_define_self]
    cases h.scope? r <;> rfl
  · rw [parent?, parent?, scope?_define_ne hr]

theorem Forest.define (hf : h.Forest) : (h.define s name v).Forest := by
  intro ref parent hp
  rw [parent?_define] at hp
  exact hf ref parent hp

theorem Forest.addScope (hf : h.Forest) {parent : Option Ref} (hp : ∀ p ∈ parent, p < h.scopes.size) :
    (h.addScope parent).1.Forest := by
  intro r p hr
  obtain ⟨scope, hs, hparent⟩ := Option.bind_eq_some_iff.mp hr
  by_cases hnew : r = h.scopes.size
  · subst hnew
    rw [scope?_addScope_self] at hs
    cases hs
    exact hp p hparent
  · obtain ⟨hlt, -⟩ := Array.getElem?_eq_some_iff.mp hs
    rw [size_addScope] at hlt
    have hold : r < h.scopes.size := Nat.lt_of_le_of_ne (Nat.le_of_lt_succ hlt) hnew
    rw [scope?_addScope hold] at hs
    exact hf r p ((parent?_of_scope hs).trans hparent)

theorem lt_size_of_binds (hb : h.Binds name r) : r < h.scopes.size := by
  obtain ⟨v, hv⟩ := hb
  obtain ⟨scope, hs, -⟩ := Option.bind_eq_some_iff.mp hv
  exact (Array.getElem?_eq_some_iff.mp hs).1

theorem assigned_eq (h : Heap) (s : Ref) (name : String) (v : Value) :
    h.assigned s name v = (h.binder? s name).elim (h, false) fun b => (h.define b name v, true) := by
  rw [assigned, assign?_eq_binder]
  cases h.binder? s name <;> rfl

theorem assigned_of_nearest (hf : h.Forest) (hn : h.NearestBinder name s b) :
    h.assigned s name v = (h.define b name v, true) := by
  rw [assigned_eq, (binder?_eq_some_iff hf).mpr hn]
  rfl

theorem assigned_of_unbound (hf : h.Forest) (hu : ∀ r, h.Within s r → ¬ h.Binds name r) :
    h.assigned s name v = (h, false) := by
  rw [assigned_eq]
  cases hfound : h.binder? s name with
  | none => rfl
  | some b =>
    have hn := (binder?_eq_some_iff hf).mp hfound
    exact absurd hn.binds (hu b hn.within)

theorem Ordered.forest (ho : h.Ordered) : h.Forest := by
  intro ref parent hp
  obtain ⟨scope, hs, hparent⟩ := Option.bind_eq_some_iff.mp hp
  exact ho.parent ref scope parent hs hparent

theorem Scoped.forest (hs : h.Scoped) : h.Forest := by
  induction hs with
  | start =>
    intro ref parent hp
    simp [parent?, scope?, Heap.empty] at hp
  | root _ ih =>
    apply ih.addScope
    intro p hp
    cases hp
  | child _ hp ih =>
    apply ih.addScope
    rintro p ⟨⟩
    exact hp
  | define ref name v _ ih => exact ih.define
  | @assign h ref name v _ ih =>
    rw [assigned_eq]
    cases h.binder? ref name with
    | none => exact ih
    | some b => exact ih.define

theorem rebinds_define (hb : h.Binds name s) : h.Rebinds (h.define s name v) s name v where
  before := hb
  after := own?_define_self (lt_size_of_binds hb)
  others _ hx := own?_define_of_ne (.inr hx)
  names := by
    obtain ⟨hlt, hmem⟩ := mem_names_of_binder? (binder?_here hb)
    rw [names_define_self hlt, if_pos hmem]
  parent := parent?_define
  elsewhere _ hr := scope?_define_ne hr
  rest := rfl

theorem NearestBinder.lookup (hf : h.Forest) (hn : h.NearestBinder name r b) :
    h.lookup r name = h.own? name b := by
  induction hn with
  | here hb =>
    obtain ⟨v, hv⟩ := hb
    rw [lookup_eq hf, hv, Option.some_or]
  | outer hb hp _ ih =>
    rw [lookup_eq hf, not_binds_iff.mp hb, hp, Option.none_or, Option.bind_some, ih]

theorem lookup_congr (hf : h.Forest) (hf' : h'.Forest) (hp : ∀ c, h'.parent? c = h.parent? c)
    (ho : ∀ c, h.Within r c → h'.own? name c = h.own? name c) :
    h'.lookup r name = h.lookup r name := by
  induction r using Nat.strong_induction_on with
  | _ r ih =>
    rw [lookup_eq hf, lookup_eq hf', ho r .refl, hp]
    cases hr : h.parent? r with
    | none => rfl
    | some p =>
      have hparent := ih p (hf r p hr) fun c hc => ho c (.head hr hc)
      rw [Option.bind_some, Option.bind_some, hparent]

theorem Rebinds.own? (hr : h.Rebinds h' s name v) (hne : r ≠ s ∨ x ≠ name) :
    h'.own? x r = h.own? x r := by
  by_cases hrs : r = s
  · subst hrs
    exact hr.others x (hne.resolve_left (not_not_intro rfl))
  · rw [Heap.own?, Heap.own?, hr.elsewhere r hrs]

theorem Rebinds.parent? (hr : h.Rebinds h' s name v) (r : Ref) : h'.parent? r = h.parent? r := by
  by_cases hrs : r = s
  · rw [hrs, hr.parent]
  · rw [Heap.parent?, Heap.parent?, hr.elsewhere r hrs]

theorem Rebinds.forest (hr : h.Rebinds h' s name v) (hf : h.Forest) : h'.Forest := by
  intro ref parent hp
  rw [hr.parent?] at hp
  exact hf ref parent hp

theorem Rebinds.binds_iff (hr : h.Rebinds h' s name v) : h'.Binds x r ↔ h.Binds x r := by
  by_cases hne : r ≠ s ∨ x ≠ name
  · rw [Binds, Binds, hr.own? hne]
  · obtain ⟨rfl, rfl⟩ : r = s ∧ x = name := by simpa using hne
    exact ⟨fun _ => hr.before, fun _ => ⟨v, hr.after⟩⟩

theorem Rebinds.nearestBinder (hr : h.Rebinds h' s name v) (hn : h.NearestBinder x r b) :
    h'.NearestBinder x r b := by
  induction hn with
  | here hb => exact .here (hr.binds_iff.mpr hb)
  | outer hb hp _ ih => exact .outer (mt hr.binds_iff.mp hb) ((hr.parent? _).trans hp) ih

theorem Rebinds.lookup_of_nearest (hr : h.Rebinds h' s name v) (hf : h.Forest)
    (hn : h.NearestBinder name r s) : h'.lookup r name = some v := by
  rw [(hr.nearestBinder hn).lookup (hr.forest hf), hr.after]

theorem Rebinds.lookup_of_not_nearest (hr : h.Rebinds h' s name v) (hf : h.Forest)
    (hn : ¬ h.NearestBinder name r s) : h'.lookup r name = h.lookup r name := by
  by_cases hw : h.Within r s
  · obtain ⟨b, hb⟩ := exists_nearestBinder hw hr.before
    have hne : b ≠ s := fun heq => hn (heq ▸ hb)
    rw [(hr.nearestBinder hb).lookup (hr.forest hf), hb.lookup hf, hr.own? (.inl hne)]
  · apply lookup_congr hf (hr.forest hf) hr.parent?
    intro c hc
    exact hr.own? (.inl fun heq => hw (heq ▸ hc))

theorem lookup_define_of_not_within (hf : h.Forest) (hw : ¬ h.Within r s) :
    (h.define s name v).lookup r name = h.lookup r name := by
  apply lookup_congr hf hf.define fun c => parent?_define
  intro c hc
  exact own?_define_of_ne (.inl fun heq => hw (heq ▸ hc))

theorem lookup_define_of_nearer (hf : h.Forest) (hr : h.Within r c) (hc : s < c)
    (hb : h.Binds name c) : (h.define s name v).lookup r name = h.lookup r name := by
  induction hr using Relation.ReflTransGen.head_induction_on with
  | refl =>
    obtain ⟨w, hw⟩ := hb
    have hown : (h.define s name v).own? name c = h.own? name c :=
      own?_define_of_ne (.inl (Nat.ne_of_gt hc))
    rw [lookup_eq hf, lookup_eq hf.define, hown, hw, Option.some_or, Option.some_or]
  | @head r p hp hpc ih =>
    have hne : r ≠ s := by
      have hle : c ≤ r := Within.le hf (.head hp hpc)
      exact Nat.ne_of_gt (Nat.lt_of_lt_of_le hc hle)
    rw [lookup_eq hf, lookup_eq hf.define, own?_define_of_ne (.inl hne), parent?_define, hp,
      Option.bind_some, Option.bind_some, ih]

theorem lookup_define_of_visible (hf : h.Forest) (hs : s < h.scopes.size) (hr : h.Within r s)
    (hv : ∀ c, h.Within r c → h.Within c s → c ≠ s → ¬ h.Binds name c) :
    (h.define s name v).lookup r name = some v := by
  induction hr using Relation.ReflTransGen.head_induction_on with
  | refl => rw [lookup_eq hf.define, own?_define_self hs, Option.some_or]
  | @head r p hp hps ih =>
    have hne : r ≠ s := Nat.ne_of_gt (Nat.lt_of_le_of_lt (Within.le hf hps) (hf r p hp))
    have hnone := not_binds_iff.mp (hv r .refl (.head hp hps) hne)
    rw [lookup_eq hf.define, own?_define_of_ne (.inl hne), hnone, parent?_define, hp,
      Option.none_or, Option.bind_some]
    exact ih fun c hc => hv c (.head hp hc)

end

end Heap

/-- An assignment overwrites the nearest binding outward, which all scopes see that have it nearest, or
finds none and changes nothing. A declaration is not seen from further out, nor from where another
binder is nearer, and from everywhere else inside it is. -/
theorem assign_nearest_binder :
    (∀ m : Machine, m.Reachable → m.heap.Forest) ∧
    (∀ h : Heap, h.Forest → ∀ (s : Ref) (name : String) (v : Value),
      (∀ r, h.Within s r → h.Binds name r →
        ∃ b h', h.NearestBinder name s b ∧ h.assigned s name v = (h', true) ∧
          h.Rebinds h' b name v ∧
          ∀ r, (h.NearestBinder name r b → h'.lookup r name = some v) ∧
            (¬ h.NearestBinder name r b → h'.lookup r name = h.lookup r name)) ∧
      ((∀ r, h.Within s r → ¬ h.Binds name r) → h.assigned s name v = (h, false))) ∧
    (∀ h : Heap, h.Scoped → h.Forest ∧
      ∀ (s : Ref) (name : String) (v : Value), s < h.scopes.size → ∀ r,
        let h' := h.define s name v
        (h.Within s r → r ≠ s → h'.lookup r name = h.lookup r name) ∧
        (∀ c, h.Within r c → h.Within c s → c ≠ s → h.Binds name c →
          h'.lookup r name = h.lookup r name) ∧
        (h.Within r s → (∀ c, h.Within r c → h.Within c s → c ≠ s → ¬ h.Binds name c) →
          h'.lookup r name = some v)) := by
  refine ⟨fun m hm => (Heap.Reachable.ordered hm).1.forest, ?_, ?_⟩
  · intro h hf s name v
    constructor
    · intro r hw hb
      obtain ⟨b, hn⟩ := Heap.exists_nearestBinder hw hb
      have hr : h.Rebinds (h.define b name v) b name v := Heap.rebinds_define hn.binds
      exact ⟨b, h.define b name v, hn, Heap.assigned_of_nearest hf hn, hr,
        fun r => ⟨hr.lookup_of_nearest hf, hr.lookup_of_not_nearest hf⟩⟩
    · exact Heap.assigned_of_unbound hf
  · intro h hscoped
    have hf := hscoped.forest
    refine ⟨hf, fun s name v hs r => ⟨?_, ?_, ?_⟩⟩
    · intro hw hne
      apply Heap.lookup_define_of_not_within hf
      intro hback
      exact hne (Nat.le_antisymm (hw.le hf) (hback.le hf))
    · intro c hrc hcs hne hb
      exact Heap.lookup_define_of_nearer hf hrc (Nat.lt_of_le_of_ne (hcs.le hf) (Ne.symm hne)) hb
    · exact Heap.lookup_define_of_visible hf hs

def nestedScopes : Heap :=
  let outermost := (Heap.empty.addScope none).1.define 0 "a" (.integer 1)
  let first := (outermost.addScope (some 0)).1.define 1 "a" (.integer 2)
  ((first.addScope (some 1)).1.addScope (some 0)).1

theorem assign_nearest_binder_nestedScopes :
    nestedScopes.Scoped ∧ nestedScopes.Within 2 1 ∧ nestedScopes.Binds "a" 1 ∧
      (∃ h', nestedScopes.assigned 2 "a" .null = (h', true) ∧ h'.lookup 2 "a" = some .null ∧
        h'.lookup 3 "a" = nestedScopes.lookup 3 "a") ∧
      (nestedScopes.define 0 "a" .null).lookup 2 "a" = nestedScopes.lookup 2 "a" ∧
      (nestedScopes.define 0 "a" .null).lookup 3 "a" = some .null := by
  have hscoped : nestedScopes.Scoped := by
    apply Heap.Scoped.child _ (by decide)
    apply Heap.Scoped.child _ (by decide)
    apply Heap.Scoped.define
    apply Heap.Scoped.child _ (by decide)
    apply Heap.Scoped.define
    exact .root .start
  have hin : nestedScopes.Within 2 1 := .single rfl
  have hbinds : nestedScopes.Binds "a" 1 := ⟨.integer 2, by decide⟩
  obtain ⟨-, hassign, hdefine⟩ := assign_nearest_binder
  obtain ⟨hf, hseen⟩ := hdefine nestedScopes hscoped
  obtain ⟨b, h', hn, hdone, -, hlookup⟩ := (hassign nestedScopes hf 2 "a" .null).1 1 hin hbinds
  obtain rfl : b = 1 := by
    have hfound : nestedScopes.binder? 2 "a" = some 1 := by decide
    exact Option.some.inj ((hn.binder? hf).symm.trans hfound)
  have hother : ¬ nestedScopes.NearestBinder "a" 3 1 := by
    intro hn
    have hfound : nestedScopes.binder? 3 "a" = some 0 := by decide
    cases hfound.symm.trans (hn.binder? hf)
  refine ⟨hscoped, hin, hbinds, ⟨h', hdone, (hlookup 2).1 hn, (hlookup 3).2 hother⟩, ?_, ?_⟩
  · exact (hseen 0 "a" .null (by decide) 2).2.1 1 hin (.single rfl) (by decide) hbinds
  · apply (hseen 0 "a" .null (by decide) 3).2.2 (.single rfl)
    intro c hc _ hne
    rcases Relation.ReflTransGen.cases_head hc with rfl | ⟨p, hp, hpc⟩
    · exact Heap.not_binds_iff.mpr (by decide)
    · obtain rfl : 0 = p := Option.some.inj hp
      exact absurd (Nat.le_zero.mp (Heap.Within.le hf hpc)) hne

end Scriptlet
