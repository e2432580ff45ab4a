import Scriptlet.Proofs.EvaluationRuns
import Scriptlet.Proofs.TreeChecks

/-!
Laws about what evaluation may do to the heap. A law says which changes an expression and a statement may
make while a scope runs. This file holds the rules by which computations obey a law, and that calls do if
running a function does.
-/

namespace Scriptlet

inductive Heap.Offers (h : Heap) (scope : Ref) : Ref → Prop
  | current : h.Offers scope scope
  | existing {ref} : ref < h.scopes.size → h.Offers scope ref
  | function {ref : Ref} {closure : Closure} : h.functions[ref]? = some closure → h.Offers scope closure.scope
  | ofClass {ref : Ref} {cell : ClassCell} : h.classes[ref]? = some cell → h.Offers scope cell.scope

/-- What evaluation may do to the heap, apart from writing names. -/
structure HeapLaw where
  expression : Ref → Heap → Heap → Prop
  statement : Ref → Heap → Heap → Prop
  refl {s h} : expression s h h
  trans {s h₁ h₂ h₃} : expression s h₁ h₂ → expression s h₂ h₃ → expression s h₁ h₃
  lift {s h h'} : expression s h h' → statement s h h'
  then_trans {s h₁ h₂ h₃} : statement s h₁ h₂ → statement s h₂ h₃ → statement s h₁ h₃
  grows {s h h'} : expression s h h' → h.scopes.size ≤ h'.scopes.size
  opened {s h h' parent} : h.Offers s parent →
    statement h.scopes.size (h.addScope (some parent)).1 h' → expression s h h'
  receiver {s h parent v} : h.Offers s parent → expression s h (h.addReceiver parent v)
  addFunction {s h closure} : h.Offers s closure.scope → expression s h (h.addFunction closure).1
  addClass {s h decl fields} : fields.map (·.1) = instanceFields decl.members →
    expression s h (h.addClass ⟨decl, s, .empty, fields⟩).1
  addObject {s h table} : expression s h (h.addObject table).1
  addArray {s h elements} : expression s h (h.addArray elements).1
  setProperty {s h holder key v} : expression s h (h.setProperty holder key v)

structure Law extends HeapLaw where
  define {s h name v} : statement s h (h.define s name v)
  assign {s h name v binder} : h.binder? s name = some binder →
    expression s h (h.define binder name v)
  receiver hp := opened hp define

structure HeapLaw.Covers (law : HeapLaw) (T : Ref → Heap → Heap → Prop) : Prop where
  lift {s h h'} : law.expression s h h' → T s h h'
  trans {s h₁ h₂ h₃} : T s h₁ h₂ → T s h₂ h₃ → T s h₁ h₃

theorem HeapLaw.covers_expression (law : HeapLaw) : law.Covers law.expression := ⟨id, law.trans⟩

theorem HeapLaw.covers_statement (law : HeapLaw) : law.Covers law.statement :=
  ⟨law.lift, law.then_trans⟩

structure Heap.Passes (c : Check) (h : Heap) : Prop where
  function : ∀ (ref : Ref) (f : Closure), h.functions[ref]? = some f → f.decl.every c
  ofClass : ∀ (ref : Ref) (cell : ClassCell), h.classes[ref]? = some cell → cell.decl.every c

namespace Heap.Passes

variable {c : Check} {h : Heap}

theorem addFunction {closure : Closure} (hc : closure.decl.every c) (hh : h.Passes c) :
    (h.addFunction closure).1.Passes c := by
  refine ⟨fun ref f hr => ?_, hh.ofClass⟩
  change (h.functions.push closure)[ref]? = some f at hr
  rw [Array.getElem?_push] at hr
  split at hr
  · cases hr
    exact hc
  · exact hh.function ref f hr

theorem addClass {cell : ClassCell} (hc : cell.decl.every c) (hh : h.Passes c) :
    (h.addClass cell).1.Passes c := by
  refine ⟨hh.function, fun ref f hr => ?_⟩
  change (h.classes.push cell)[ref]? = some f at hr
  rw [Array.getElem?_push] at hr
  split at hr
  · cases hr
    exact hc
  · exact hh.ofClass ref f hr

theorem modifyStatics {ref : Ref} {f : Table → Table} (hh : h.Passes c) :
    (h.modifyStatics ref f).Passes c := by
  refine ⟨hh.function, fun k c hk => ?_⟩
  change (h.classes.modify ref fun c => { c with statics := f c.statics })[k]? = some c at hk
  rw [Array.getElem?_modify] at hk
  split at hk
  · obtain ⟨cell, hcell, rfl⟩ := Option.map_eq_some_iff.mp hk
    exact hh.ofClass k cell hcell
  · exact hh.ofClass k c hk

theorem setProperty {holder key v : Value} (hh : h.Passes c) : (h.setProperty holder key v).Passes c := by
  unfold Heap.setProperty
  cases holder with
  | object => exact ⟨hh.function, hh.ofClass⟩
  | array =>
    dsimp only
    split
    · exact ⟨hh.function, hh.ofClass⟩
    · exact hh
  | classRef => exact hh.modifyStatics
  | _ => exact hh

theorem addScope {parent : Option Ref} (hh : h.Passes c) : (h.addScope parent).1.Passes c :=
  ⟨hh.function, hh.ofClass⟩

theorem define {s : Ref} {name : String} {v : Value} (hh : h.Passes c) : (h.define s name v).Passes c :=
  ⟨hh.function, hh.ofClass⟩

theorem bindParams {s : Ref} {params : List String} {args : List Value} (hh : h.Passes c) :
    (h.bindParams s params args).Passes c := by
  induction params generalizing h args with
  | nil => exact hh
  | cons p params ih => exact ih hh.define

theorem addObject {table : Table} (hh : h.Passes c) : (h.addObject table).1.Passes c :=
  ⟨hh.function, hh.ofClass⟩

theorem addArray {elements : Array Value} (hh : h.Passes c) : (h.addArray elements).1.Passes c :=
  ⟨hh.function, hh.ofClass⟩

theorem bindMethods {ref scope : Ref} {methods : List (String × FunctionDecl)}
    (hm : ∀ method ∈ methods, method.2.every c) (hh : h.Passes c) :
    (h.bindMethods ref scope methods).Passes c :=
  bindMethods_induct hh fun _ _ _ hmem hh => (hh.addFunction (hm _ hmem)).setProperty

theorem addGlobals (hh : h.Passes c) : h.addGlobals.1.Passes c := ⟨hh.function, hh.ofClass⟩

theorem empty (c : Check) : Heap.empty.Passes c :=
  ⟨fun _ _ h => by simp [Heap.empty] at h, fun _ _ h => by simp [Heap.empty] at h⟩

end Heap.Passes

theorem FunctionDecl.every_iff {c : Check} {d : FunctionDecl} :
    d.every c ↔ c.function d ∧ everyStmt c d.body := by
  cases d
  rfl

theorem ClassDecl.every_iff {c : Check} {d : ClassDecl} : d.every c ↔ everyMember c d.members := by
  cases d
  rfl

theorem everyMember_iff {c : Check} {members : List ClassMember} :
    everyMember c members ↔ ∀ m ∈ members, m.every c := by
  induction members with
  | nil => simp [everyMember]
  | cons m members ih => simp [everyMember, ih]

theorem every_of_instanceMethods {c : Check} {members : List ClassMember} {name : String}
    {decl : FunctionDecl} (h : everyMember c members)
    (hm : (name, decl) ∈ instanceMethods members) : decl.every c :=
  (everyMember_iff.mp h _ (mem_instanceMethods.mp hm).1).2

theorem mem_of_findConstructor? {members : List ClassMember} {decl : FunctionDecl}
    (hc : findConstructor? members = some decl) : (constructorName, decl) ∈ instanceMethods members := by
  obtain ⟨⟨name, d⟩, hfind, rfl⟩ := Option.map_eq_some_iff.mp hc
  obtain rfl : name = constructorName := by simpa using List.find?_some hfind
  exact List.mem_reverse.mp (List.mem_of_find?_eq_some hfind)

theorem every_of_findConstructor? {c : Check} {members : List ClassMember} {decl : FunctionDecl}
    (h : everyMember c members) (hc : findConstructor? members = some decl) : decl.every c :=
  every_of_instanceMethods h (mem_of_findConstructor? hc)

theorem Heap.Passes.addInstance {c : Check} {h : Heap} {cell : ClassCell}
    (hc : everyMember c cell.decl.members) (hh : h.Passes c) : (h.addInstance cell).Passes c :=
  hh.addObject.addScope.define.bindMethods fun _ hm => every_of_instanceMethods hc hm

theorem HeapLaw.bindMethods (law : HeapLaw) {s ref scope : Ref}
    {methods : List (String × FunctionDecl)} {h : Heap} (hs : scope < h.scopes.size) :
    law.expression s h (h.bindMethods ref scope methods) := by
  refine Heap.bindMethods_induct law.refl fun h' name decl _ hh => ?_
  have hs' := Nat.lt_of_lt_of_le hs (law.grows hh)
  exact law.trans hh (law.trans (law.addFunction (.existing hs')) law.setProperty)

theorem HeapLaw.addInstance (law : HeapLaw) {s ref : Ref} {cell : ClassCell} {h : Heap}
    (hc : h.classes[ref]? = some cell) : law.expression s h (h.addInstance cell) := by
  refine law.trans law.addObject (law.trans (law.receiver (.ofClass hc)) (law.bindMethods ?_))
  rw [Heap.size_addReceiver]
  exact Nat.lt_succ_self _

theorem HeapLaw.addClassScope (law : HeapLaw) {s : Ref} {decl : ClassDecl}
    {fields : List (String × Value)} {h : Heap}
    (hf : fields.map (·.1) = instanceFields decl.members) :
    law.expression s h (h.addClassScope ⟨decl, s, .empty, fields⟩) :=
  law.trans (law.addClass hf) (law.receiver .current)

namespace Eval

/-- From `m` the computation changes the heap as `T` allows, and goes back to the scope of `m`. -/
def Obeys {α : Type} (T : Ref → Heap → Heap → Prop) (c : Eval α) (m : Machine) : Prop :=
  (c.after m).scope = m.scope ∧ T m.scope m.heap (c.after m).heap

variable {α β : Type} {c : Eval α} {m : Machine}

namespace Obeys

variable {law : Law} {T : Ref → Heap → Heap → Prop}

theorem still (hT : law.Covers T) (h : c.after m = m) : c.Obeys T m := by
  rw [Obeys, h]
  exact ⟨rfl, hT.lift law.refl⟩

theorem lift (hT : law.Covers T) (h : c.Obeys law.expression m) : c.Obeys T m := ⟨h.1, hT.lift h.2⟩

theorem bind {f : α → Eval β} (hT : law.Covers T) (hc : c.Obeys T m)
    (hf : ∀ a m', c m = .ok a m' → m'.scope = m.scope → T m.scope m.heap m'.heap →
      (f a).Obeys T m') : (c >>= f).Obeys T m := by
  obtain ⟨hs, hh⟩ := hc
  cases h : c m with
  | ok a m' =>
    rw [after_ok h] at hs hh
    obtain ⟨hs', hh'⟩ := hf a m' h hs hh
    rw [hs] at hs' hh'
    rw [Obeys, after_bind_ok h]
    exact ⟨hs', hT.trans hh hh'⟩
  | error e m' =>
    rw [Obeys, after_bind_error h, ← after_error h]
    exact ⟨hs, hh⟩

theorem change {f : Heap → Heap} (h : T m.scope m.heap (f m.heap)) : (change f).Obeys T m := ⟨rfl, h⟩

theorem alloc {f : Heap → Heap × Ref} (h : T m.scope m.heap (f m.heap).1) : (alloc f).Obeys T m :=
  ⟨rfl, h⟩

theorem step {c' : Eval α} {m' : Machine} (hT : law.Covers T) (hrun : c m = c' m')
    (hs : m'.scope = m.scope) (hh : T m.scope m.heap m'.heap) (hc : c'.Obeys T m') : c.Obeys T m := by
  have hafter : c.after m = c'.after m' := by rw [after, after, hrun]
  obtain ⟨hs', hh'⟩ := hc
  rw [hs] at hs' hh'
  rw [Obeys, hafter]
  exact ⟨hs', hT.trans hh hh'⟩

end Obeys
end Eval

def Limits.Obey (limits : Limits) (law : Law) : Prop :=
  ∀ (closure : Closure) (args : List Value) (m : Machine), m.heap.Offers m.scope closure.scope →
    (limits.run closure args).Obeys law.expression m

section

open Eval

variable {law : Law} {T : Ref → Heap → Heap → Prop} {limits : Limits} {m : Machine}

theorem lookup_obeys (hT : law.Covers T) (name : String) (line : Nat) :
    (lookup name line).Obeys T m := by
  refine .bind hT (.still hT rfl) fun scope m' _ _ _ => .bind hT (.still hT rfl) fun v m' _ _ _ => ?_
  cases v <;> exact .still hT rfl

theorem assign_obeys (hT : law.Covers T) (name : String) (v : Value) (line : Nat) :
    (assign name v line).Obeys T m := by
  refine .step hT assign_run rfl (hT.lift law.refl) ?_
  cases hb : m.heap.binder? m.scope name with
  | none => exact .still hT rfl
  | some binder =>
    rw [Option.elim_some]
    exact .change (hT.lift (law.assign hb))

theorem ofExcept_obeys {α : Type} (hT : law.Covers T) (r : Except Fault α) :
    (Eval.ofExcept r).Obeys T m := by
  cases r <;> exact .still hT rfl

theorem binary_obeys (hT : law.Covers T) (op : BinaryOp) (a b : Value) (line : Nat) :
    (binary op a b line).Obeys T m :=
  .bind hT (.still hT rfl) fun _ _ _ _ _ => ofExcept_obeys hT _

theorem makeFunction_obeys (hT : law.Covers T) (decl : FunctionDecl) :
    (makeFunction decl).Obeys T m :=
  ⟨rfl, hT.lift (law.addFunction .current)⟩

theorem notCallable_obeys (hT : law.Covers T) (callee : Value) (line : Nat) :
    (notCallable callee line).Obeys T m :=
  .bind hT (.still hT rfl) fun _ _ _ _ _ => .still hT rfl

theorem print_obeys (hT : law.Covers T) (text : String) : (print text).Obeys T m :=
  ⟨rfl, hT.lift law.refl⟩

theorem native_obeys (hT : law.Covers T) (native : Native) (args : List Value) :
    (native.run args).Obeys T m := by
  have log : (logLine args).Obeys T m :=
    .bind hT (.still hT rfl) fun _ _ _ _ _ => .bind hT (print_obeys hT _) fun _ _ _ _ _ => .still hT rfl
  cases native with
  | log => exact log
  | warn => exact log
  | clock => exact .still hT rfl

theorem construct_obeys (hl : limits.Obey law) {scope : Ref} (members : List ClassMember)
    (args : List Value) (hs : scope < m.heap.scopes.size) :
    (construct limits scope members args).Obeys law.expression m := by
  have hT := law.covers_expression
  unfold construct
  split
  · exact .bind hT (hl ⟨_, _⟩ args m (.existing hs)) fun _ _ _ _ _ => .still hT rfl
  · exact .still hT rfl

theorem instantiate_obeys (hl : limits.Obey law) {ref : Ref} {cell : ClassCell} (args : List Value)
    (hc : m.heap.classes[ref]? = some cell) :
    (instantiate limits cell args).Obeys law.expression m := by
  have hT := law.covers_expression
  have hs : m.heap.scopes.size < (m.heap.addInstance cell).scopes.size := by
    rw [Heap.size_addInstance]
    exact Nat.lt_succ_self _
  refine .step hT instantiate_run rfl (law.addInstance hc) ?_
  exact .bind hT (construct_obeys hl _ args hs) fun _ _ _ _ _ => .still hT rfl

theorem callValue_obeys (hl : limits.Obey law) (callee : Value) (args : List Value) (line : Nat) :
    (callValue limits callee args line).Obeys law.expression m := by
  have hT := law.covers_expression
  cases callee with
  | function ref =>
    refine .step hT callValue_function rfl law.refl ?_
    split
    · next closure hf => exact hl closure args m (.function hf)
    · exact notCallable_obeys hT _ _
  | native ref =>
    refine .bind hT (.still hT rfl) fun native m' _ _ _ => ?_
    cases native with
    | none => exact notCallable_obeys hT _ _
    | some native => exact native_obeys hT native args
  | classRef ref =>
    refine .step hT callValue_class rfl law.refl ?_
    split
    · next cell hc => exact instantiate_obeys hl args hc
    · exact notCallable_obeys hT _ _
  | _ => exact notCallable_obeys hT _ _

end
end Scriptlet
