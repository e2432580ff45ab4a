import Mathlib
import Scriptlet.Proofs.RecastHeaps
import Scriptlet.Proofs.StateGrowth

/-!
Heaps in which scopes are folded away. Through a scope that binds nothing one sees what its parent shows,
so a name means the same in a heap that has the parent in its place.
-/

namespace Scriptlet

def Closure.moved (place : Ref → Ref) (c : Closure) : Closure := { c with scope := place c.scope }

def ClassCell.moved (place : Ref → Ref) (c : ClassCell) : ClassCell := { c with scope := place c.scope }

def Recast.moving (place : Ref → Ref) : Recast where
  closure := Closure.moved place
  cell := ClassCell.moved place
  closure_label _ := rfl
  cell_label _ := rfl
  cell_store _ _ := rfl

def Leads (place : Ref → Ref) (ref : Ref) : Prop := ∀ r < ref, place r ≠ place ref

inductive Scope.Stands (place : Ref → Ref) (h' : Heap) (ref : Ref) (s : Scope) : Prop
  | leading : Leads place ref → h'.scope? (place ref) = some ⟨s.parent.map place, s.bindings⟩ →
    Stands place h' ref s
  | folded {parent : Ref} : s.bindings = [] → s.parent = some parent → place parent = place ref →
    Stands place h' ref s

/-- `h'` is `h` with some scopes folded into their parents; `place` says where the scopes of `h` are. -/
structure Heap.Folds (place : Ref → Ref) (h h' : Heap) : Prop where
  functions : h'.functions = h.functions.map (Closure.moved place)
  natives : h'.natives = h.natives
  classes : h'.classes = h.classes.map (ClassCell.moved place)
  objects : h'.objects = h.objects
  arrays : h'.arrays = h.arrays
  ordered : h.Ordered
  ordered' : h'.Ordered
  inside : ∀ ref < h.scopes.size, place ref < h'.scopes.size
  stands : ∀ ref s, h.scope? ref = some s → s.Stands place h' ref

section

variable {place place' : Ref → Ref} {h h' k' : Heap} {ref : Ref} {s : Scope}

theorem Leads.ne {r : Ref} (hq : Leads place ref) (hr : Leads place r) (hne : r ≠ ref) :
    place r ≠ place ref := by
  obtain hlt | hlt := Nat.lt_or_gt_of_ne hne
  · exact hq r hlt
  · exact (hr ref hlt).symm

theorem Leads.agree (hlead : Leads place ref) (h : ∀ r ≤ ref, place' r = place r) :
    Leads place' ref := by
  intro r hr
  rw [h r (Nat.le_of_lt hr), h ref (Nat.le_refl _)]
  exact hlead r hr

theorem Scope.Stands.agree (hs : s.Stands place h' ref) (hparent : ∀ p ∈ s.parent, p < ref)
    (h : ∀ r ≤ ref, place' r = place r)
    (hk : ∀ t, h'.scope? (place ref) = some t → k'.scope? (place ref) = some t) :
    s.Stands place' k' ref := by
  have href := h ref (Nat.le_refl _)
  have hle (p : Ref) (hp : p ∈ s.parent) : place' p = place p := h p (Nat.le_of_lt (hparent p hp))
  cases hs with
  | leading hlead hscope =>
    have hmap : s.parent.map place' = s.parent.map place := Option.map_congr hle
    refine .leading (hlead.agree h) ?_
    rw [href, hmap]
    exact hk _ hscope
  | folded hempty hp hplace =>
    refine .folded hempty hp ?_
    rw [hle _ hp, hplace, href]

end

namespace Heap

variable {place : Ref → Ref} {h h' k' : Heap} {ref : Ref} {s : Scope}

def placing (h h' : Heap) (place : Ref → Ref) : Ref → Ref :=
  Function.update place h.scopes.size h'.scopes.size

theorem placing_self (h h' : Heap) (place : Ref → Ref) :
    h.placing h' place h.scopes.size = h'.scopes.size := Function.update_self _ _ _

theorem placing_old (hr : ref < h.scopes.size) : h.placing h' place ref = place ref :=
  Function.update_of_ne (Nat.ne_of_lt hr) _ _

namespace Folds

theorem leads_placing (hf : h.Folds place h') : Leads (h.placing h' place) h.scopes.size := by
  intro r hr
  rw [placing_self, placing_old hr]
  exact Nat.ne_of_lt (hf.inside r hr)

theorem refl (ho : h.Ordered) : h.Folds id h where
  functions := (Array.map_id _).symm
  natives := rfl
  classes := (Array.map_id _).symm
  objects := rfl
  arrays := rfl
  ordered := ho
  ordered' := ho
  inside _ hr := hr
  stands ref s hs := by
    refine .leading (fun r hr => Nat.ne_of_lt hr) ?_
    rw [id, hs, Option.map_id]
    rfl

theorem recast (hf : h.Folds place h') : h' = h.recast (.moving place) h'.scopes := by
  obtain ⟨hfunctions, hnatives, hclasses, hobjects, harrays, -⟩ := hf
  cases h'
  cases hfunctions
  cases hnatives
  cases hclasses
  cases hobjects
  cases harrays
  rfl

theorem of_recast {k k' : Heap} (hf : h.Folds place h') (hk : k' = k.recast (.moving place) k'.scopes)
    (hscopes : k.scopes = h.scopes) (hscopes' : k'.scopes = h'.scopes) (ho : k.Ordered)
    (ho' : k'.Ordered) : k.Folds place k' where
  functions := by rw [hk]; rfl
  natives := by rw [hk]; rfl
  classes := by rw [hk]; rfl
  objects := by rw [hk]; rfl
  arrays := by rw [hk]; rfl
  ordered := ho
  ordered' := ho'
  inside ref hr := by
    rw [hscopes] at hr
    rw [hscopes']
    exact hf.inside ref hr
  stands ref s hs := by
    rw [scope?, hscopes] at hs
    refine (hf.stands ref s hs).agree (fun p hp => hf.ordered.parent ref s p hs hp) (fun _ _ => rfl) ?_
    intro t ht
    rwa [scope?, hscopes']

theorem leading (hf : h.Folds place h') (hlead : Leads place ref) (hs : h.scope? ref = some s) :
    h'.scope? (place ref) = some ⟨s.parent.map place, s.bindings⟩ := by
  cases hf.stands ref s hs with
  | leading _ hscope => exact hscope
  | folded _ hp hplace => exact absurd hplace (hlead _ (hf.ordered.parent ref s _ hs hp))

theorem outward_outermost {refs : List Ref} (hw : h.Outward ref refs) (hs : h.scope? ref = some s)
    (hp : s.parent = none) : refs = [ref] := by
  cases hw with
  | outermost => rfl
  | inner hs' hp' =>
    cases hs.symm.trans hs'
    cases hp.symm.trans hp'

theorem outward_inner {refs : List Ref} {parent : Ref} (hw : h.Outward ref refs)
    (hs : h.scope? ref = some s) (hp : s.parent = some parent) :
    ∃ outer, refs = ref :: outer ∧ h.Outward parent outer := by
  cases hw with
  | outermost hs' hp' =>
    cases hs.symm.trans hs'
    cases hp.symm.trans hp'
  | inner hs' hp' hrest =>
    cases hs.symm.trans hs'
    cases hp.symm.trans hp'
    exact ⟨_, rfl, hrest⟩

theorem find?_place {p p' : Ref → Bool} {refs refs' : List Ref} (hlead : Leads place ref)
    (hp : p' (place ref) = p ref)
    (hrest : refs'.find? p' = (refs.find? p).map place ∧ ∀ b ∈ refs.find? p, Leads place b) :
    (place ref :: refs').find? p' = ((ref :: refs).find? p).map place ∧
      ∀ b ∈ (ref :: refs).find? p, Leads place b := by
  rw [List.find?_cons, List.find?_cons, hp]
  cases p ref with
  | false => exact hrest
  | true =>
    refine ⟨rfl, ?_⟩
    rintro _ ⟨⟩
    exact hlead

theorem find?_binder (hf : h.Folds place h') (name : String) {refs refs' : List Ref}
    (hw : h.Outward ref refs) (hw' : h'.Outward (place ref) refs') :
    refs'.find? (h'.bindsAt name) = (refs.find? (h.bindsAt name)).map place ∧
      ∀ b ∈ refs.find? (h.bindsAt name), Leads place b := by
  -- By induction on the way outward. Past a scope that is folded the search goes on from its parent,
  -- which has the same place.
  have hbinds {ref : Ref} {s : Scope} (hs : h.scope? ref = some s)
      (hscope : h'.scope? (place ref) = some ⟨s.parent.map place, s.bindings⟩) :
      h'.bindsAt name (place ref) = h.bindsAt name ref := by
    rw [bindsAt_of_scope name hscope, bindsAt_of_scope name hs]
    rfl
  induction hw generalizing refs' with
  | @outermost ref s hs hp =>
    cases hf.stands ref s hs with
    | folded _ hp' => cases hp.symm.trans hp'
    | leading hlead hscope =>
      obtain rfl := outward_outermost hw' hscope (by rw [hp]; rfl)
      refine find?_place hlead (hbinds hs hscope) ⟨rfl, ?_⟩
      rintro _ ⟨⟩
  | @inner ref parent s refs hs hp hrest ih =>
    cases hf.stands ref s hs with
    | folded hempty hp' hplace =>
      obtain rfl := Option.some.inj (hp.symm.trans hp')
      have hnone : h.bindsAt name ref = false := by
        rw [bindsAt_of_scope name hs, Scope.binds, Scope.get?, hempty]
        rfl
      rw [← hplace] at hw'
      rw [List.find?_cons, hnone]
      exact ih hw'
    | leading hlead hscope =>
      obtain ⟨outer, rfl, houter⟩ := outward_inner hw' hscope (by rw [hp]; rfl)
      exact find?_place hlead (hbinds hs hscope) (ih houter)

theorem binder? (hf : h.Folds place h') (hr : ref < h.scopes.size) (name : String) :
    h'.binder? (place ref) name = (h.binder? ref name).map place ∧
      ∀ b ∈ h.binder? ref name, Leads place b :=
  hf.find?_binder name (hf.ordered.outward_chain hr) (hf.ordered'.outward_chain (hf.inside ref hr))

theorem lookup (hf : h.Folds place h') (hr : ref < h.scopes.size) (name : String) :
    h'.lookup (place ref) name = h.lookup ref name := by
  obtain ⟨hbinder, hleads⟩ := hf.binder? hr name
  rw [lookup_eq_binder, lookup_eq_binder, hbinder]
  cases hb : h.binder? ref name with
  | none => rfl
  | some b =>
    obtain ⟨hlt, -⟩ := mem_names_of_binder? hb
    have hs : h.scope? b = some h.scopes[b] := Array.getElem?_eq_getElem hlt
    have hscope := hf.leading (hleads b hb) hs
    change (h'.scope? (place b) >>= fun s => s.get? name) = (h.scope? b >>= fun s => s.get? name)
    rw [hs, hscope]
    rfl

theorem define (hf : h.Folds place h') (hr : ref < h.scopes.size) (hlead : Leads place ref)
    (name : String) (v : Value) :
    (h.define ref name v).Folds place (h'.define (place ref) name v) where
  functions := hf.functions
  natives := hf.natives
  classes := hf.classes
  objects := hf.objects
  arrays := hf.arrays
  ordered := hf.ordered.define
  ordered' := hf.ordered'.define
  inside r hr := by
    rw [size_define] at hr ⊢
    exact hf.inside r hr
  stands r s hs := by
    by_cases hself : r = ref
    · subst hself
      have hold : h.scope? r = some h.scopes[r] := Array.getElem?_eq_getElem hr
      have hscope := hf.leading hlead hold
      rw [scope?_define_self, hold] at hs
      cases hs
      refine .leading hlead ?_
      rw [scope?_define_self, hscope]
      rfl
    · rw [scope?_define_ne hself] at hs
      cases hf.stands r s hs with
      | folded hempty hp hplace => exact .folded hempty hp hplace
      | leading hlead' hscope =>
        refine .leading hlead' ?_
        rw [scope?_define_ne (hlead.ne hlead' hself)]
        exact hscope

theorem moved_update (hf : h.Folds place h') (r : Ref) :
    h'.functions = h.functions.map (Closure.moved (Function.update place h.scopes.size r)) ∧
      h'.classes = h.classes.map (ClassCell.moved (Function.update place h.scopes.size r)) := by
  rw [hf.functions, hf.classes]
  constructor
  · refine Array.map_congr_left fun c hc => ?_
    obtain ⟨i, hi⟩ := Array.mem_iff_getElem?.mp hc
    have hne := Nat.ne_of_lt (hf.ordered.function i c hi)
    rw [Closure.moved, Closure.moved, Function.update_of_ne hne]
  · refine Array.map_congr_left fun c hc => ?_
    obtain ⟨i, hi⟩ := Array.mem_iff_getElem?.mp hc
    have hne := Nat.ne_of_lt (hf.ordered.ofClass i c hi)
    rw [ClassCell.moved, ClassCell.moved, Function.update_of_ne hne]

theorem placed {parent r : Ref} (hf : h.Folds place h')
    (hp : parent < h.scopes.size) (ho : k'.Ordered)
    (hk : k' = { h' with scopes := k'.scopes }) (hle : h'.scopes.size ≤ k'.scopes.size)
    (hr : r < k'.scopes.size) (hkeep : ∀ q < h'.scopes.size, k'.scope? q = h'.scope? q)
    (hnew : Scope.Stands (Function.update place h.scopes.size r) k' h.scopes.size ⟨some parent, []⟩) :
    (h.addScope (some parent)).1.Folds (Function.update place h.scopes.size r) k' where
  functions := by
    rw [hk]
    exact (hf.moved_update r).1
  natives := by
    rw [hk]
    exact hf.natives
  classes := by
    rw [hk]
    exact (hf.moved_update r).2
  objects := by
    rw [hk]
    exact hf.objects
  arrays := by
    rw [hk]
    exact hf.arrays
  ordered := by
    refine hf.ordered.addScope ?_
    rintro _ ⟨⟩
    exact hp
  ordered' := ho
  inside q hq := by
    rw [size_addScope] at hq
    obtain hold | rfl := Nat.lt_succ_iff_lt_or_eq.mp hq
    · rw [Function.update_of_ne (Nat.ne_of_lt hold)]
      exact Nat.lt_of_lt_of_le (hf.inside q hold) hle
    · rwa [Function.update_self]
  stands q s hs := by
    obtain ⟨hq, -⟩ := Array.getElem?_eq_some_iff.mp hs
    rw [size_addScope] at hq
    obtain hold | rfl := Nat.lt_succ_iff_lt_or_eq.mp hq
    · rw [scope?_addScope hold] at hs
      refine (hf.stands q s hs).agree (fun p hp => hf.ordered.parent q s p hs hp) (fun u hu => ?_) ?_
      · exact Function.update_of_ne (Nat.ne_of_lt (Nat.lt_of_le_of_lt hu hold)) _ _
      · intro t ht
        rwa [hkeep _ (hf.inside q hold)]
    · rw [scope?_addScope_self] at hs
      cases hs
      exact hnew

theorem addScope {parent : Ref} (hf : h.Folds place h') (hp : parent < h.scopes.size) :
    (h.addScope (some parent)).1.Folds (h.placing h' place) (h'.addScope (some (place parent))).1 := by
  have hp' : ∀ p ∈ some (place parent), p < h'.scopes.size := by
    rintro _ ⟨⟩
    exact hf.inside parent hp
  have hnew := h'.lt_size_addScope (some (place parent))
  refine hf.placed hp (hf.ordered'.addScope hp') rfl (Nat.le_of_lt hnew) hnew
    (fun q hq => scope?_addScope hq) (.leading hf.leads_placing ?_)
  have hold : h.placing h' place parent = place parent := placing_old hp
  rw [Function.update_self, scope?_addScope_self, ← hold]
  rfl

theorem addFolded {parent : Ref} (hf : h.Folds place h') (hp : parent < h.scopes.size) :
    (h.addScope (some parent)).1.Folds (Function.update place h.scopes.size (place parent)) h' := by
  refine hf.placed hp hf.ordered' rfl (Nat.le_refl _) (hf.inside _ hp) (fun _ _ => rfl)
    (.folded rfl rfl ?_)
  rw [Function.update_self, Function.update_of_ne (Nat.ne_of_lt hp)]

theorem addFunction {c : Closure} (hf : h.Folds place h') (hc : c.scope < h.scopes.size) :
    (h.addFunction c).1.Folds place (h'.addFunction (c.moved place)).1 := by
  refine hf.of_recast ?_ rfl rfl (hf.ordered.addFunction hc)
    (hf.ordered'.addFunction (hf.inside _ hc))
  rw [recast_addFunction]
  change _ = ((h.recast (.moving place) h'.scopes).addFunction _).1
  rw [← hf.recast]
  rfl

theorem addClass {c : ClassCell} (hf : h.Folds place h') (hc : c.scope < h.scopes.size) :
    (h.addClass c).1.Folds place (h'.addClass (c.moved place)).1 := by
  refine hf.of_recast ?_ rfl rfl (hf.ordered.addClass hc) (hf.ordered'.addClass (hf.inside _ hc))
  rw [recast_addClass]
  change _ = ((h.recast (.moving place) h'.scopes).addClass _).1
  rw [← hf.recast]
  rfl

theorem addObject (hf : h.Folds place h') (table : Table) :
    (h.addObject table).1.Folds place (h'.addObject table).1 := by
  refine hf.of_recast ?_ rfl rfl hf.ordered.addObject hf.ordered'.addObject
  change _ = ((h.recast (.moving place) h'.scopes).addObject table).1
  rw [← hf.recast]

theorem addArray (hf : h.Folds place h') (elements : Array Value) :
    (h.addArray elements).1.Folds place (h'.addArray elements).1 := by
  refine hf.of_recast ?_ rfl rfl hf.ordered.addArray hf.ordered'.addArray
  change _ = ((h.recast (.moving place) h'.scopes).addArray elements).1
  rw [← hf.recast]

theorem setProperty (hf : h.Folds place h') (holder key v : Value) :
    (h.setProperty holder key v).Folds place (h'.setProperty holder key v) := by
  refine hf.of_recast ?_ (h.scopes_setProperty _ _ _) (h'.scopes_setProperty _ _ _)
    hf.ordered.setProperty hf.ordered'.setProperty
  rw [scopes_setProperty, recast_setProperty, ← hf.recast]

theorem bindParams (hf : h.Folds place h') (hr : ref < h.scopes.size) (hlead : Leads place ref)
    (params : List String) (args : List Value) :
    (h.bindParams ref params args).Folds place (h'.bindParams (place ref) params args) := by
  induction params generalizing h h' args with
  | nil => exact hf
  | cons name params ih =>
    have hdefine := hf.define hr hlead name (args.head?.getD .null)
    refine ih hdefine ?_ args.tail
    rwa [size_define]

theorem addReceiver {parent : Ref} (hf : h.Folds place h') (hp : parent < h.scopes.size) (v : Value) :
    (h.addReceiver parent v).Folds (h.placing h' place) (h'.addReceiver (place parent) v) := by
  have hdefine := (hf.addScope hp).define (h.lt_size_addScope _) hf.leads_placing "this" v
  rwa [placing_self] at hdefine

theorem bindMethods {scope : Ref} (hf : h.Folds place h') (ref : Ref) (hs : scope < h.scopes.size)
    (methods : List (String × FunctionDecl)) :
    (h.bindMethods ref scope methods).Folds place (h'.bindMethods ref (place scope) methods) := by
  induction methods generalizing h h' with
  | nil => exact hf
  | cons method methods ih =>
    obtain ⟨name, decl⟩ := method
    have hmethod : (h.bindMethod ref scope name decl).Folds place
        (h'.bindMethod ref (place scope) name decl) := by
      unfold bindMethod
      split
      · exact hf
      · have hsize : h'.functions.size = h.functions.size := by rw [hf.functions, Array.size_map]
        rw [hsize]
        exact (hf.addFunction (c := ⟨decl, scope⟩) hs).setProperty (.object ref) (.text name) _
    have hscopes : (h.bindMethod ref scope name decl).scopes = h.scopes :=
      h.scopes_bindMethods ref scope [(name, decl)]
    refine ih hmethod ?_
    rwa [hscopes]

theorem addInstance {cell : ClassCell} (hf : h.Folds place h') (hc : cell.scope < h.scopes.size) :
    (h.addInstance cell).Folds (h.placing h' place) (h'.addInstance (cell.moved place)) := by
  have hsize : h'.objects.size = h.objects.size := by rw [hf.objects]
  have hobject := hf.addObject (.ofNamed cell.fields)
  have hreceiver := hobject.addReceiver hc (.object h.objects.size)
  have hnew : h.scopes.size < ((h.addObject (.ofNamed cell.fields)).1.addReceiver cell.scope
      (.object h.objects.size)).scopes.size := by
    rw [size_addReceiver]
    exact Nat.lt_succ_self _
  have hmethods := hreceiver.bindMethods h.objects.size hnew (instanceMethods cell.decl.members)
  have hplace : (h.addObject (.ofNamed cell.fields)).1.placing (h'.addObject (.ofNamed cell.fields)).1
      place h.scopes.size = h'.scopes.size := placing_self _ _ _
  rw [hplace] at hmethods
  unfold Heap.addInstance
  rw [hsize]
  exact hmethods

theorem addClassScope {cell : ClassCell} (hf : h.Folds place h') (hc : cell.scope < h.scopes.size) :
    (h.addClassScope cell).Folds (h.placing h' place) (h'.addClassScope (cell.moved place)) := by
  have hsize : h'.classes.size = h.classes.size := by rw [hf.classes, Array.size_map]
  unfold Heap.addClassScope
  rw [hsize]
  exact (hf.addClass hc).addReceiver hc _

end Folds
end Heap
end Scriptlet
