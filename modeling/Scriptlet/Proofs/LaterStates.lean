import Scriptlet.Proofs.NearestBinders

namespace Scriptlet

namespace Heap

/-- The heaps that elementary steps lead to from `h₀`, where `s₀` is the current scope. A step may bind
`this` in a new scope, but no step writes `this` in a scope of `kept`. -/
inductive Later (kept : Ref → Prop) (h₀ : Heap) (s₀ : Ref) : Heap → Ref → Prop
  | refl : Later kept h₀ s₀ h₀ s₀
  | root {h s} : Later kept h₀ s₀ h s → Later kept h₀ s₀ (h.addScope none).1 h.scopes.size
  | enter {h s ref} : Later kept h₀ s₀ h s → ref < h.scopes.size → Later kept h₀ s₀ h ref
  | addScope {h s} : Later kept h₀ s₀ h s → Later kept h₀ s₀ (h.addScope (some s)).1 s
  | addReceiver {h s} (v : Value) : Later kept h₀ s₀ h s → Later kept h₀ s₀ (h.addReceiver s v) s
  | define {h s} {name : String} (hn : name = "this" → ¬ kept s) (v : Value) :
      Later kept h₀ s₀ h s → Later kept h₀ s₀ (h.define s name v) s
  | addFunction {h s} (decl : FunctionDecl) :
      Later kept h₀ s₀ h s → Later kept h₀ s₀ (h.addFunction ⟨decl, s⟩).1 s
  | addClass {h s} (decl : ClassDecl) (fields : List (String × Value)) :
      Later kept h₀ s₀ h s → Later kept h₀ s₀ (h.addClass ⟨decl, s, .empty, fields⟩).1 s
  | addObject {h s} (table : Table) :
      Later kept h₀ s₀ h s → Later kept h₀ s₀ (h.addObject table).1 s
  | addArray {h s} (elements : Array Value) :
      Later kept h₀ s₀ h s → Later kept h₀ s₀ (h.addArray elements).1 s
  | setProperty {h s} (holder key v : Value) :
      Later kept h₀ s₀ h s → Later kept h₀ s₀ (h.setProperty holder key v) s

theorem own?_addScope {h : Heap} {parent : Option Ref} {name : String} {r : Ref}
    (hr : r < h.scopes.size) : (h.addScope parent).1.own? name r = h.own? name r := by
  rw [own?, own?, scope?_addScope hr]

theorem own?_addReceiver {h : Heap} {parent r : Ref} {v : Value} {name : String}
    (hr : r < h.scopes.size) : (h.addReceiver parent v).own? name r = h.own? name r := by
  rw [addReceiver, own?_define_of_ne (.inl (Nat.ne_of_lt hr)), own?_addScope hr]

theorem own?_addReceiver_self (h : Heap) (parent : Ref) (v : Value) :
    (h.addReceiver parent v).own? "this" h.scopes.size = some v :=
  own?_define_self (h.lt_size_addScope _)

theorem own?_congr {h h' : Heap} (hs : h'.scopes = h.scopes) (name : String) (r : Ref) :
    h'.own? name r = h.own? name r := by
  rw [own?, own?, scope?, scope?, hs]

theorem lookup_of_own {h : Heap} {name : String} {r : Ref} {v : Value} (hv : h.own? name r = some v) :
    h.lookup r name = some v := by
  rw [lookup_eq_binder, binder?_here ⟨v, hv⟩]
  exact hv

theorem own?_addInstance_self (h : Heap) (cell : ClassCell) :
    (h.addInstance cell).own? "this" h.scopes.size = some (.object h.objects.size) := by
  let h₁ := (h.addObject (.ofNamed cell.fields)).1
  let h₂ := h₁.addReceiver cell.scope (.object h.objects.size)
  have hscopes : (h.addInstance cell).scopes = h₂.scopes := h₂.scopes_bindMethods _ _ _
  rw [own?_congr hscopes]
  exact h₁.own?_addReceiver_self cell.scope (.object h.objects.size)

structure Keeps (kept : Ref → Prop) (h h' : Heap) : Prop where
  grows : h.Grows h'
  this : ∀ r < h.scopes.size, kept r → h'.own? "this" r = h.own? "this" r

namespace Later

variable {kept : Ref → Prop} {h₀ h₁ h h' : Heap} {s₀ s₁ s : Ref}

theorem trans (h01 : h₀.Later kept s₀ h₁ s₁) (h12 : h₁.Later kept s₁ h s) : h₀.Later kept s₀ h s := by
  induction h12 with
  | refl => exact h01
  | root _ ih => exact .root ih
  | enter _ hlt ih => exact .enter ih hlt
  | addScope _ ih => exact .addScope ih
  | addReceiver v _ ih => exact .addReceiver v ih
  | define hn v _ ih => exact .define hn v ih
  | addFunction decl _ ih => exact .addFunction decl ih
  | addClass decl fields _ ih => exact .addClass decl fields ih
  | addObject table _ ih => exact .addObject table ih
  | addArray elements _ ih => exact .addArray elements ih
  | setProperty holder key v _ ih => exact .setProperty holder key v ih

theorem reachable (hr : h₀.Reachable s₀) (hl : h₀.Later kept s₀ h s) : h.Reachable s := by
  induction hl with
  | refl => exact hr
  | root _ ih => exact .root ih
  | enter _ hlt ih => exact .enter ih hlt
  | addScope _ ih => exact .addScope ih
  | @addReceiver h s v _ ih =>
    have hlt : s < (h.addReceiver s v).scopes.size := by
      rw [size_addReceiver]
      exact Nat.lt_succ_of_lt ih.ordered.2
    exact .enter (.define "this" v (ih.addScope.enter (h.lt_size_addScope _))) hlt
  | define hn v _ ih => exact .define _ v ih
  | addFunction decl _ ih => exact .addFunction decl ih
  | addClass decl fields _ ih => exact .addClass decl fields ih
  | addObject table _ ih => exact .addObject table ih
  | addArray elements _ ih => exact .addArray elements ih
  | setProperty holder key v _ ih => exact .setProperty holder key v ih

theorem keeps (hl : h₀.Later kept s₀ h s) : Keeps kept h₀ h := by
  have next {h h' : Heap} (ih : Keeps kept h₀ h) (hg : h.Grows h')
      (ho : ∀ r < h.scopes.size, kept r → h'.own? "this" r = h.own? "this" r) : Keeps kept h₀ h' := by
    refine ⟨ih.grows.trans hg, fun r hr hk => ?_⟩
    exact (ho r (Nat.lt_of_lt_of_le hr ih.grows.scopes.size_le) hk).trans (ih.this r hr hk)
  induction hl with
  | refl => exact ⟨.refl h₀, fun _ _ _ => rfl⟩
  | root _ ih | addScope _ ih => exact next ih grows_addScope fun _ hr _ => own?_addScope hr
  | enter _ _ ih => exact ih
  | addReceiver v _ ih =>
    exact next ih (grows_addScope.trans grows_define) fun _ hr _ => own?_addReceiver hr
  | @define h s name hn v _ ih =>
    refine next ih grows_define fun r _ hk => own?_define_of_ne ?_
    by_cases hname : "this" = name
    · exact .inl fun hr => hn hname.symm (hr ▸ hk)
    · exact .inr hname
  | @addFunction h s decl _ ih =>
    exact next ih (growth.addFunction (s := s) .current) fun _ _ _ => rfl
  | addClass decl fields _ ih => exact next ih grows_addClass fun _ _ _ => rfl
  | @addObject h s table _ ih => exact next ih (growth.addObject (s := s)) fun _ _ _ => rfl
  | @addArray h s elements _ ih => exact next ih (growth.addArray (s := s)) fun _ _ _ => rfl
  | setProperty holder key v _ ih =>
    exact next ih grows_setProperty fun r _ _ => own?_congr (scopes_setProperty ..) _ r

theorem assign {v : Value} {name : String} {binder : Ref} (hr : h.Reachable s)
    (hn : name = "this" → ¬ kept binder) (hb : binder < h.scopes.size) :
    h.Later kept s (h.define binder name v) s := by
  have hdefined : h.Later kept s (h.define binder name v) binder := .define hn v (.enter .refl hb)
  apply hdefined.enter
  rw [size_define]
  exact hr.ordered.2

theorem child {parent : Ref} (hr : h.Reachable s) (hp : h.Offers s parent) :
    h.Later kept s (h.addScope (some parent)).1 h.scopes.size := by
  obtain ⟨ho, hlt⟩ := hr.ordered
  exact .enter (.addScope (.enter .refl (ho.offers_lt hlt hp))) (h.lt_size_addScope _)

theorem receiver {parent : Ref} {v : Value} (hr : h.Reachable s) (hp : h.Offers s parent) :
    h.Later kept s (h.addReceiver parent v) s := by
  obtain ⟨ho, hlt⟩ := hr.ordered
  have hadded : h.Later kept s (h.addReceiver parent v) parent :=
    .addReceiver v (.enter .refl (ho.offers_lt hlt hp))
  apply hadded.enter
  rw [size_addReceiver]
  exact Nat.lt_succ_of_lt hlt

theorem closure {c : Closure} (hr : h.Reachable s) (hp : h.Offers s c.scope) :
    h.Later kept s (h.addFunction c).1 s := by
  obtain ⟨ho, hlt⟩ := hr.ordered
  exact .enter (.addFunction c.decl (.enter .refl (ho.offers_lt hlt hp))) hlt

end Later

end Heap

end Scriptlet
