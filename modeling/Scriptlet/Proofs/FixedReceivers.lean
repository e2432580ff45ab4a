import Scriptlet.Proofs.BoundMethods
import Scriptlet.Proofs.GuardedEvaluation
import Scriptlet.Proofs.TokenScanning

/-!
`this` in methods. The methods of an instance share a scope in which `this` is the instance, static
methods one in which it is their class. So it stays, unless one of these methods assigns to `this`.
-/

namespace Scriptlet

namespace Machine

def Sound (m : Machine) : Prop := Guard.free.Holds m.heap m.scope

def Later (m : Machine) (kept : Ref → Prop) (m' : Machine) : Prop :=
  m.heap.Later kept m.scope m'.heap m'.scope

end Machine

open Machine Guard Eval

section

variable {g : Guard} {n : Nat} {m m' : Machine} {r ref : Ref}

theorem Guard.Comes.kept (h : g.Comes m m') : m.Later g.scopes m' ∧ g.Holds m'.heap m'.scope := by
  refine ⟨?_, h.holds⟩
  rw [Machine.Later, h.scope]
  exact h.leads.later

theorem Guard.Holds.addGlobals : free.Holds Heap.empty.addGlobals.1 Heap.empty.addGlobals.2 := by
  let P := free.Shows Heap.empty.addGlobals.1
  have hempty : free.Stores P .empty := ⟨nofun, nofun, nofun, nofun, nofun⟩
  have hnative (ref : Ref) (hr : ref < 3) : P (.native ref) := hr
  have hconsole : ∀ entry ∈ (Table.ofNamed [("log", .native 0), ("warn", .native 1)]).entries, P entry.2 :=
    Table.forall_ofNamed (by simp [hnative])
  have hobject : P (.object 0) := Nat.zero_lt_one
  have hstores := (((hempty.addNative .log).addNative .warn).addObject hconsole).addNative .clock
  refine ⟨.start, nofun, nofun, ?_⟩
  exact ((hstores.addScope none).define (.inl hobject)).define (.inl (hnative 2 (by decide)))

theorem Machine.Sound.start (clock : Float) : (Machine.start clock).withGlobals.Sound := Holds.addGlobals

end

end Scriptlet
