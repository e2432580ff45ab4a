import Scriptlet.Proofs.FaultLines
import Scriptlet.Proofs.LawfulEvaluation
import Scriptlet.Proofs.MappedLines

namespace Scriptlet

def Eval.Blames {α : Type} (L : Nat → Prop) (c : Eval α) : Prop :=
  ∀ m, m.heap.Passes (lined L) →
    (c.after m).heap.Passes (lined L) ∧ ∀ e m', c m = .error (.fault e) m' → L e.line

def Limits.Blame (limits : Limits) (L : Nat → Prop) : Prop :=
  ∀ (closure : Closure) (args : List Value), closure.decl.every (lined L) →
    (limits.run closure args).Blames L

namespace Eval.Blames

variable {α β : Type} {L : Nat → Prop} {c : Eval α}

theorem pure (a : α) : (pure a : Eval α).Blames L := by
  intro m hm
  refine ⟨hm, fun e m' h => ?_⟩
  cases h

theorem exhausted : (throw .exhausted : Eval α).Blames L := by
  intro m hm
  refine ⟨hm, fun e m' h => ?_⟩
  cases h

theorem raise {cause : Fault.Cause} {line : Nat} (h : L line) :
    (raise cause line : Eval α).Blames L := by
  intro m hm
  refine ⟨hm, fun e m' he => ?_⟩
  cases he
  exact h

theorem ofExcept {r : Except Fault α} (h : ∀ e, r = .error e → L e.line) :
    (Eval.ofExcept r).Blames L := by
  cases r with
  | ok a => exact pure a
  | error e => exact raise (h e rfl)

theorem bind {f : α → Eval β} (hc : c.Blames L) (hf : ∀ a, (f a).Blames L) :
    (c >>= f).Blames L := by
  intro m hm
  obtain ⟨hpasses, hfault⟩ := hc m hm
  cases h : c m with
  | ok a m' =>
    rw [after_ok h] at hpasses
    rw [after_bind_ok h, bind_ok h]
    exact hf a m' hpasses
  | error e m' =>
    rw [after_error h] at hpasses
    rw [after_bind_error h, bind_error h]
    refine ⟨hpasses, fun fault n he => hfault fault n ?_⟩
    cases he
    exact h

theorem ask_bind {f : Heap → α} {g : α → Eval β} (h : ∀ h, h.Passes (lined L) → (g (f h)).Blames L) :
    (ask f >>= g).Blames L := fun m hm => h m.heap hm m hm

theorem ask (f : Heap → α) : (ask f).Blames L := ask_bind fun _ _ => pure _

theorem currentScope : currentScope.Blames L := by
  intro m hm
  refine ⟨hm, fun e m' h => ?_⟩
  cases h

theorem change {f : Heap → Heap} (hf : ∀ {h}, h.Passes (lined L) → (f h).Passes (lined L)) :
    (change f).Blames L := by
  intro m hm
  refine ⟨hf hm, fun e m' h => ?_⟩
  cases h

theorem alloc {f : Heap → Heap × Ref} (hf : ∀ {h}, h.Passes (lined L) → (f h).1.Passes (lined L)) :
    (alloc f).Blames L := by
  intro m hm
  refine ⟨hf hm, fun e m' h => ?_⟩
  cases h

theorem print (text : String) : (print text).Blames L := by
  intro m hm
  refine ⟨hm, fun e m' h => ?_⟩
  cases h

theorem within (scope : Ref) (hc : c.Blames L) : (within scope c).Blames L := by
  intro m hm
  obtain ⟨hpasses, hfault⟩ := hc { m with scope } hm
  rw [after_within]
  refine ⟨hpasses, fun e m' h => ?_⟩
  unfold Eval.within at h
  cases hrun : c { m with scope } with
  | ok a n =>
    rw [hrun] at h
    cases h
  | error e' n =>
    rw [hrun] at h
    obtain rfl : e' = .fault e := (EStateM.Result.error.inj h).1
    exact hfault e n hrun

end Eval.Blames

section

open Eval

variable {L : Nat → Prop} {limits : Limits} {line : Nat}

theorem lookup_blames (name : String) (hline : L line) : (lookup name line).Blames L := by
  refine Blames.currentScope.bind fun scope => (Blames.ask _).bind fun v => ?_
  cases v with
  | some v => exact .pure v
  | none => exact .raise hline

theorem assign_blames (name : String) (v : Value) (hline : L line) :
    (assign name v line).Blames L := by
  rw [assign_eq]
  refine Blames.currentScope.bind fun scope => (Blames.ask _).bind fun binder => ?_
  cases binder with
  | some binder =>
    rw [Option.elim_some]
    exact .change .define
  | none => exact .raise hline

theorem define_blames (name : String) (v : Value) : (define name v).Blames L :=
  Blames.currentScope.bind fun _ => .change .define

theorem childScope_blames : childScope.Blames L :=
  Blames.currentScope.bind fun _ => .alloc .addScope

theorem binary_blames (op : BinaryOp) (a b : Value) (hline : L line) :
    (binary op a b line).Blames L := by
  refine .ask_bind fun h _ => .ofExcept fun e he => ?_
  rw [(binary_onLines line line h op a b).line he]
  exact hline

theorem step_blames (s : Step) (v : Value) (hline : L line) :
    (Eval.ofExcept (s.apply v line)).Blames L := by
  refine .ofExcept fun e he => ?_
  rw [(step_onLines line line s v).line he]
  exact hline

theorem unary_blames (op : UnaryOp) (v : Value) (hline : L line) :
    (Eval.ofExcept (op.apply v line)).Blames L := by
  refine .ofExcept fun e he => ?_
  rw [(unary_onLines line line op v).line he]
  exact hline

theorem makeFunction_blames {decl : FunctionDecl} (hd : decl.every (lined L)) :
    (makeFunction decl).Blames L :=
  Blames.currentScope.bind fun _ => (Blames.alloc (.addFunction hd)).bind fun _ => .pure _

theorem notCallable_blames (callee : Value) (hline : L line) : (notCallable callee line).Blames L :=
  (Blames.ask _).bind fun _ => .raise hline

theorem native_blames (native : Native) (args : List Value) : (native.run args).Blames L := by
  have log : (logLine args).Blames L :=
    (Blames.ask _).bind fun _ => (Blames.print _).bind fun _ => .pure _
  cases native with
  | log => exact log
  | warn => exact log
  | clock => exact fun m hm => ⟨hm, fun e m' h => by cases h⟩

theorem bindMethods_blames (ref scope : Ref) (methods : List (String × FunctionDecl))
    (hm : ∀ method ∈ methods, method.2.every (lined L)) :
    (bindMethods ref scope methods).Blames L := by
  intro m hpasses
  rw [after_ok (bindMethods_run methods m), bindMethods_run]
  refine ⟨hpasses.bindMethods hm, fun e m' h => ?_⟩
  cases h

theorem construct_blames (hl : limits.Blame L) (scope : Ref) {members : List ClassMember}
    (args : List Value) (hm : everyMember (lined L) members) :
    (construct limits scope members args).Blames L := by
  unfold construct
  split
  · next decl hctor =>
    exact (hl ⟨decl, scope⟩ args (every_of_findConstructor? hm hctor)).bind fun _ => .pure _
  · exact .pure _

theorem instantiate_blames (hl : limits.Blame L) {cell : ClassCell} (args : List Value)
    (hc : cell.decl.every (lined L)) : (instantiate limits cell args).Blames L := by
  have hm := ClassDecl.every_iff.mp hc
  refine (Blames.alloc .addObject).bind fun ref => (Blames.alloc .addScope).bind fun scope => ?_
  refine (Blames.change .define).bind fun _ => ?_
  refine (bindMethods_blames ref scope _ fun _ h => every_of_instanceMethods hm h).bind fun _ => ?_
  exact (construct_blames hl scope args hm).bind fun _ => .pure _

theorem callValue_blames (hl : limits.Blame L) (callee : Value) (args : List Value) (hline : L line) :
    (callValue limits callee args line).Blames L := by
  cases callee with
  | function ref =>
    refine .ask_bind fun h hpasses => ?_
    cases hf : h.functions[ref]? with
    | none => exact notCallable_blames _ hline
    | some closure => exact hl closure args (hpasses.function ref closure hf)
  | native ref =>
    refine (Blames.ask _).bind fun native => ?_
    cases native with
    | none => exact notCallable_blames _ hline
    | some native => exact native_blames native args
  | classRef ref =>
    refine .ask_bind fun h hpasses => ?_
    cases hc : h.classes[ref]? with
    | none => exact notCallable_blames _ hline
    | some cell => exact instantiate_blames hl args (hpasses.ofClass ref cell hc)
  | _ => exact notCallable_blames _ hline

end
end Scriptlet
