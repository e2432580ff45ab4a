import Scriptlet.Proofs.StateGrowth

namespace Scriptlet

def Eval.Restores {α : Type} (c : Eval α) : Prop := ∀ m : Machine, (c.after m).scope = m.scope

/-- Programs run one after the other in one context: each starts in the scope the one before it left.
Gives the outcome of each, and the machine after it. -/
def Machine.shared (m : Machine) (n : Nat) : List String → List (Except Failure Value × Machine)
  | [] => []
  | source :: rest =>
    let result := m.interpret n source
    result :: result.2.shared n rest

def Machine.separate (m : Machine) (n : Nat) (scope : Ref) :
    List String → List (Except Failure Value × Machine)
  | [] => []
  | source :: rest =>
    let result := { m with scope }.interpret n source
    result :: result.2.separate n scope rest

theorem Machine.interpret_scope (m : Machine) (n : Nat) (source : String) :
    (m.interpret n source).2.scope = m.scope := by
  obtain h | ⟨program, h⟩ := m.interpret_machine n source
  · rw [h]
  · rw [h]
    exact (runProgram_obeys growth n program m).1

theorem Machine.shared_eq_separate (m : Machine) (n : Nat) (sources : List String) :
    m.shared n sources = m.separate n m.scope sources := by
  induction sources generalizing m with
  | nil => rfl
  | cons source rest ih =>
    have hrest := ih (m.interpret n source).2
    rw [m.interpret_scope] at hrest
    rw [shared, separate, hrest]

theorem scope_restored :
    (∀ (n : Nat) (e : Expr), (eval (.upTo n) e).Restores) ∧
    (∀ (n : Nat) (s : Stmt), (execute (.upTo n) s).Restores) ∧
    (∀ (n : Nat) (body : List Stmt) (last : Value), (executeAll (.upTo n) body last).Restores) ∧
    (∀ (n : Nat) (callee : Value) (args : List Value) (line : Nat),
      (callValue (.upTo n) callee args line).Restores) ∧
    (∀ (n : Nat) (program : List Stmt), (runProgram n program).Restores) ∧
    ∀ (n : Nat) (m : Machine) (sources : List String),
      m.shared n sources = m.separate n m.scope sources := by
  have hl := upTo_obey growth
  refine ⟨fun n e m => (eval_obeys (hl n) e m).1, fun n s m => ?_, fun n body last m => ?_,
    fun n callee args line m => ?_, fun n program m => ?_, fun n m => m.shared_eq_separate n⟩
  · exact (execute_obeys (hl n) s growth.covers_statement (.inr rfl) m).1
  · exact (executeAll_obeys (hl n) body last m).1
  · exact (callValue_obeys (hl n) callee args line).1
  · exact (runProgram_obeys growth n program m).1

end Scriptlet
