import Scriptlet.Heap.Scope

namespace Scriptlet.Heap

variable {h : Heap} {ref : Ref}

def bindsAt (h : Heap) (name : String) (ref : Ref) : Bool := (h.scope? ref).any (·.binds name)

def binder? (h : Heap) (ref : Ref) (name : String) : Option Ref :=
  (h.chain ref).find? (h.bindsAt name)

def own? (h : Heap) (name : String) (ref : Ref) : Option Value := h.scope? ref >>= (·.get? name)

theorem bindsAt_eq (h : Heap) (name : String) (ref : Ref) :
    h.bindsAt name ref = (h.own? name ref).isSome := by
  unfold bindsAt own?
  cases h.scope? ref <;> rfl

theorem bindsAt_of_scope (name : String) {s : Scope} (hs : h.scope? ref = some s) :
    h.bindsAt name ref = s.binds name := by
  simp [bindsAt, hs]

theorem lookupUpTo_eq (h : Heap) (name : String) (n : Nat) (ref : Ref) :
    h.lookupUpTo name n ref =
      (h.chainUpTo n ref).find? (h.bindsAt name) >>= fun b => h.scope? b >>= (·.get? name) := by
  induction n generalizing ref with
  | zero => rfl
  | succ n ih =>
    rw [lookupUpTo, chainUpTo]
    cases hs : h.scope? ref with
    | none => rfl
    | some s =>
      have hat := bindsAt_of_scope name hs
      dsimp only
      rw [List.find?_cons, hat]
      cases hv : s.get? name with
      | some v => simp [Scope.binds, hv, hs]
      | none =>
        simp only [Scope.binds, hv, Option.isSome_none]
        cases s.parent with
        | none => rfl
        | some p => exact ih p

theorem lookup_eq_binder (h : Heap) (ref : Ref) (name : String) :
    h.lookup ref name = h.binder? ref name >>= h.own? name :=
  h.lookupUpTo_eq name (ref + 1) ref

theorem assignUpTo_eq (h : Heap) (name : String) (v : Value) (n : Nat) (ref : Ref) :
    h.assignUpTo name v n ref =
      ((h.chainUpTo n ref).find? (h.bindsAt name)).map fun b => h.define b name v := by
  induction n generalizing ref with
  | zero => rfl
  | succ n ih =>
    rw [assignUpTo, chainUpTo]
    cases hs : h.scope? ref with
    | none => rfl
    | some s =>
      have hat := bindsAt_of_scope name hs
      dsimp only
      rw [List.find?_cons, hat]
      cases s.binds name with
      | true => rfl
      | false =>
        cases s.parent with
        | none => rfl
        | some p => exact ih p

theorem assign?_eq_binder (h : Heap) (ref : Ref) (name : String) (v : Value) :
    h.assign? ref name v = (h.binder? ref name).map fun b => h.define b name v :=
  h.assignUpTo_eq name v (ref + 1) ref

end Scriptlet.Heap
